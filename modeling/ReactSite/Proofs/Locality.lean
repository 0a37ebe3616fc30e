import ReactSite.Proofs.Agreement
import ReactSite.Proofs.Coverage
/-!
# Locality — what the module of a document depends on

A document's module depends on the document's own bytes, and on what kind of entry stands at which place below the source
(`moduleOf_congr`): its links are only asked whether something is there, and none of them leads out of the source.  So what
an edit does to other modules is told by the places that it fills or empties.
-/
namespace ReactSite

open FileTree (IsPlain IsName pathFault?)

namespace FileTree

/-- **Trees alike below a place** have entries of the same kind at the same places there; files may differ in their bytes. -/
def Alike (base : Location) (t t' : FileTree) : Prop :=
  ∀ names, (t.get? (base ++ names)).map (decide <| · = FileNode.directory) =
    (t'.get? (base ++ names)).map (decide <| · = FileNode.directory)

namespace Alike

variable {base : Location} {t t' t'' : FileTree}

theorem of_get? (h : ∀ names, t.get? (base ++ names) = t'.get? (base ++ names)) : Alike base t t' := fun names => by
  rw [h names]

theorem isSome (h : Alike base t t') (names : List String) :
    (t.get? (base ++ names)).isSome = (t'.get? (base ++ names)).isSome := by
  rw [← Option.isSome_map, h names, Option.isSome_map]

theorem directory_iff (h : Alike base t t') (names : List String) :
    t.get? (base ++ names) = some .directory ↔ t'.get? (base ++ names) = some .directory := by
  have hkind := h names
  cases hget : t.get? (base ++ names) <;> cases hget' : t'.get? (base ++ names) <;> simp_all

theorem file_iff (h : Alike base t t') (names : List String) :
    (∃ bytes, t.get? (base ++ names) = some (.file bytes)) ↔ ∃ bytes, t'.get? (base ++ names) = some (.file bytes) := by
  have hdir := h.directory_iff names
  have hsome := h.isSome names
  rcases hget : t.get? (base ++ names) with _ | ⟨bytes | _⟩ <;>
    rcases hget' : t'.get? (base ++ names) with _ | ⟨bytes' | _⟩ <;> simp_all

theorem follow_eq (h : Alike base t t') : ∀ {names done : List String}, ".." ∉ names →
    t.follow (base ++ done) names = t'.follow (base ++ done) names
  | [], _, _ => rfl
  | part :: rest, done, hup => by
    rw [List.mem_cons, not_or] at hup
    rw [follow_cons, follow_cons, if_neg (Ne.symm hup.1), if_neg (Ne.symm hup.1), List.append_assoc, h.follow_eq hup.2]
    simp only [ne_eq, h.directory_iff, ← Option.not_isSome, h.isSome]

variable {p : Path} {names : List String}

section

variable (h : Alike base t t') (hbase : t.locate p = .ok base) (hbase' : t'.locate p = .ok base) (hup : ".." ∉ names)
include h hbase hbase' hup

theorem locate_eq : t.locate (p.descend names) = t'.locate (p.descend names) := by
  have hstart := (locate_eq_ok.1 hbase).2
  have hstart' := (locate_eq_ok.1 hbase').2
  have hfollow : t.follow (base ++ []) names = t'.follow (base ++ []) names := h.follow_eq hup
  rw [List.append_nil] at hfollow
  unfold locate
  cases pathFault? (p.descend names) with
  | some fault => rfl
  | none =>
    simp only [origin_descend, Path.parts_descend, follow_append, hstart, hstart', Except.bind, hfollow]

theorem node?_eq : (t.node? (p.descend names)).map (decide <| · = FileNode.directory) =
    (t'.node? (p.descend names)).map (decide <| · = FileNode.directory) := by
  unfold node?
  rw [h.locate_eq hbase hbase' hup]
  cases hloc : t'.locate (p.descend names) with
  | error fault => rfl
  | ok loc =>
    obtain ⟨rfl, -⟩ := locate_names hbase' hup hloc
    exact h names

theorem pathExists_eq : t.pathExists (p.descend names) = t'.pathExists (p.descend names) := by
  unfold pathExists
  rw [← Option.isSome_map, h.node?_eq hbase hbase' hup, Option.isSome_map]

theorem isDirectory_eq : t.isDirectory (p.descend names) = t'.isDirectory (p.descend names) := by
  have hkind := h.node?_eq hbase hbase' hup
  unfold isDirectory
  rcases hget : t.node? (p.descend names) with _ | ⟨bytes | _⟩ <;>
    rcases hget' : t'.node? (p.descend names) with _ | ⟨bytes' | _⟩ <;> simp_all

end

section

variable (h : Alike base t t') (ht : t.IsTree) (ht' : t'.IsTree)
include h ht ht'

theorem fileNames_eq (names : List String) : t.fileNames (base ++ names) = t'.fileNames (base ++ names) := by
  have hcongr : (t.fileNames (base ++ names)).filter (fun _ => true) = (t'.fileNames (base ++ names)).filter fun _ => true := by
    refine namesIn_congr ht ht' _ fun name _ => ?_
    rw [← fileNames, ← fileNames, mem_fileNames ht, mem_fileNames ht', List.append_assoc]
    exact h.file_iff (names ++ [name])
  simpa only [List.filter_true] using hcongr

theorem directoryNames_eq (names : List String) : t.directoryNames (base ++ names) = t'.directoryNames (base ++ names) := by
  have hcongr : (t.directoryNames (base ++ names)).filter (fun _ => true) =
      (t'.directoryNames (base ++ names)).filter fun _ => true := by
    refine namesIn_congr ht ht' _ fun name _ => ?_
    rw [← directoryNames, ← directoryNames, mem_directoryNames ht, mem_directoryNames ht', List.append_assoc]
    exact h.directory_iff (names ++ [name])
  simpa only [List.filter_true] using hcongr

/-- **Trees that are alike below a directory have the same files there**, if both are searched deep enough. -/
theorem filesUnder_eq (hbase : t.locate p = .ok base) (hbase' : t'.locate p = .ok base) :
    ∀ {depth depth' : Nat} {names : List String}, (∀ s ∈ names, IsPlain s) →
      (∀ more, (t.get? (base ++ (names ++ more))).isSome → more.length ≤ depth ∧ more.length ≤ depth') →
        t.filesUnder depth (p.descend names) = t'.filesUnder depth' (p.descend names)
  | 0, depth', names, hnames, hdeep => by
    rw [filesUnder, eq_comm, List.eq_nil_iff_forall_not_mem]
    intro path hpath
    obtain ⟨more, name, content, -, -, -, hget⟩ := (mem_filesUnder ht' hbase' hnames).1 hpath
    rw [List.append_assoc] at hget
    have hsome := h.isSome (names ++ (more ++ [name]))
    rw [hget] at hsome
    have hlen := (hdeep (more ++ [name]) hsome).1
    rw [List.length_append, List.length_singleton] at hlen
    omega
  | depth + 1, 0, names, hnames, hdeep => by
    rw [filesUnder.eq_def t' 0, List.eq_nil_iff_forall_not_mem]
    intro path hpath
    obtain ⟨more, name, content, -, -, -, hget⟩ := (mem_filesUnder ht hbase hnames).1 hpath
    rw [List.append_assoc] at hget
    have hlen := (hdeep (more ++ [name]) (by rw [hget]; rfl)).2
    rw [List.length_append, List.length_singleton] at hlen
    omega
  | depth + 1, depth' + 1, names, hnames, hdeep => by
    rw [filesUnder_succ ht hbase hnames, filesUnder_succ ht' hbase' hnames, h.fileNames_eq ht ht', h.directoryNames_eq ht ht']
    congr 2
    refine List.flatMap_congr fun name hname => ?_
    have hdir := (mem_directoryNames ht').1 hname
    refine filesUnder_eq hbase hbase' (fun s hs => ?_) fun more hsome => ?_
    · exact (ht'.isName_of_get? hdir s (by simpa using Or.inr hs)).toIsPlain
    · have hlen := hdeep (name :: more) (by simpa using hsome)
      simpa using hlen

end

end Alike

end FileTree

/-! ## Links that stay inside -/

namespace Lexical

/-- A `..` on the stack has nothing but `..` below it, and no root. -/
theorem getLast?_pushPart {rooted : Bool} {stack : List (List Char)} (part : List Char)
    (h : parentPart ∈ stack → stack.getLast? = some parentPart ∧ rooted = false) :
    parentPart ∈ pushPart rooted stack part →
      (pushPart rooted stack part).getLast? = some parentPart ∧ rooted = false := by
  unfold pushPart
  split
  · exact h
  · split
    · rename_i hpart
      intro hmem
      have hmem' := (List.mem_cons.1 hmem).resolve_left (Ne.symm hpart)
      obtain ⟨hlast, hrooted⟩ := h hmem'
      exact ⟨by rw [List.getLast?_cons, hlast]; rfl, hrooted⟩
    · cases stack with
      | nil => cases rooted <;> simp
      | cons top below =>
        simp only
        split
        · rename_i htop
          intro _
          obtain ⟨hlast, hrooted⟩ := h (by simp [htop])
          exact ⟨by rw [List.getLast?_cons, hlast]; rfl, hrooted⟩
        · rename_i htop
          intro hmem
          obtain ⟨hlast, hrooted⟩ := h (List.mem_cons_of_mem _ hmem)
          refine ⟨?_, hrooted⟩
          rw [List.getLast?_cons] at hlast
          cases hbelow : below.getLast? with
          | none => simp_all
          | some last => simp_all

theorem getLast?_foldl_pushPart (rooted : Bool) : ∀ (parts : List (List Char)) {stack : List (List Char)},
    (parentPart ∈ stack → stack.getLast? = some parentPart ∧ rooted = false) →
      parentPart ∈ parts.foldl (pushPart rooted) stack →
        (parts.foldl (pushPart rooted) stack).getLast? = some parentPart ∧ rooted = false
  | [], _, h => h
  | part :: parts, _, h => getLast?_foldl_pushPart rooted parts (getLast?_pushPart part h)

/-- **A normal form that goes up goes up at its start**, and is not rooted. -/
theorem head?_normalParts {path : List Char} (h : parentPart ∈ normalParts path) :
    (normalParts path).head? = some parentPart ∧ rootSlashes path = 0 := by
  unfold normalParts at *
  rw [List.mem_reverse] at h
  obtain ⟨hlast, hroot⟩ := getLast?_foldl_pushPart (rootSlashes path != 0) _ (by simp) h
  exact ⟨by rw [List.head?_reverse, hlast], by simpa using hroot⟩

/-- What stands on the stack has a property that `..` and every part that is pushed have. -/
theorem forall_pushPart {P : List Char → Prop} (hparent : P parentPart) {rooted : Bool} {stack : List (List Char)}
    {part : List Char} (hpart : part ≠ [] → part ≠ ['.'] → P part) (h : ∀ s ∈ stack, P s) :
    ∀ s ∈ pushPart rooted stack part, P s := by
  unfold pushPart
  split
  · exact h
  · rename_i hkept
    split
    · exact List.forall_mem_cons.2 ⟨hpart (not_or.1 hkept).1 (not_or.1 hkept).2, h⟩
    · cases stack with
      | nil =>
        cases rooted
        · exact List.forall_mem_cons.2 ⟨hparent, h⟩
        · exact h
      | cons top below =>
        simp only
        split
        · exact List.forall_mem_cons.2 ⟨hparent, h⟩
        · exact (List.forall_mem_cons.1 h).2

/-- **What holds of `..` and of the pieces of a path holds of the parts of its normal form.** -/
theorem forall_normalParts {P : List Char → Prop} (hparent : P parentPart) {path : List Char}
    (h : ∀ s ∈ Text.splitAt '/' path, s ≠ [] → s ≠ ['.'] → P s) : ∀ s ∈ normalParts path, P s := by
  have hfold : ∀ (parts stack : List (List Char)), (∀ s ∈ parts, s ≠ [] → s ≠ ['.'] → P s) → (∀ s ∈ stack, P s) →
      ∀ s ∈ parts.foldl (pushPart (rootSlashes path != 0)) stack, P s := by
    intro parts
    induction parts with
    | nil => exact fun stack _ hstack => hstack
    | cons part parts ih =>
      intro stack hparts hstack
      rw [List.forall_mem_cons] at hparts
      exact ih _ hparts.2 (forall_pushPart hparent hparts.1 hstack)
  intro s hs
  exact hfold _ [] h (by simp) s (List.mem_reverse.1 hs)

theorem part_of_mem_normalParts (path : List Char) : ∀ s ∈ normalParts path, '/' ∉ s ∧ s ≠ [] ∧ s ≠ ['.'] :=
  forall_normalParts (by decide) fun _ hs hne hdot => ⟨Text.notMem_of_mem_splitAt hs, hne, hdot⟩

/-- The pieces of a normal form are its parts, after those of its root. -/
theorem splitAt_normalizeList (path : List Char) : Text.splitAt '/' (normalizeList path) =
    if rootSlashes path = 0 ∧ normalParts path = [] then [['.']]
    else List.replicate (rootSlashes path) [] ++ if normalParts path = [] then [[]] else normalParts path := by
  unfold normalizeList orDot
  by_cases hparts : normalParts path = []
  · by_cases hroot : rootSlashes path = 0
    · rw [if_pos (by simp [hparts, hroot]), if_pos ⟨hroot, hparts⟩]
      rfl
    · rw [if_neg (by simp [hroot]), if_neg (fun h => hroot h.1), Path.splitAt_replicate_append, if_pos hparts, hparts]
      rfl
  · have hne : List.replicate (rootSlashes path) '/' ++ ['/'].intercalate (normalParts path) ≠ [] := by
      obtain ⟨part, parts, hsplit⟩ := List.exists_cons_of_ne_nil hparts
      have hpart := (part_of_mem_normalParts path part (by simp [hsplit])).2.1
      rw [hsplit]
      cases parts <;> simp [List.intercalate, hpart]
    rw [if_neg hne, if_neg (fun h => hparts h.2), Path.splitAt_replicate_append, if_neg hparts,
      Text.splitAt_intercalate hparts fun s hs => (part_of_mem_normalParts path s hs).1]

/-- **A normal form that goes up anywhere goes up at its start.** -/
theorem head?_splitAt_normalizeList {path : List Char} (h : parentPart ∈ Text.splitAt '/' (normalizeList path)) :
    (Text.splitAt '/' (normalizeList path)).head? = some parentPart := by
  rw [splitAt_normalizeList] at h ⊢
  split at h
  · exact absurd h (by decide)
  · rename_i hne
    rw [if_neg hne]
    have hmem := (List.mem_append.1 h).resolve_left fun hmem => by
      rw [List.eq_of_mem_replicate hmem] at h
      exact absurd (List.eq_of_mem_replicate hmem) (by decide)
    split at hmem
    · exact absurd hmem (by decide)
    · rename_i hparts
      obtain ⟨hhead, hroot⟩ := head?_normalParts hmem
      rw [if_neg hparts, hroot, List.replicate_zero, List.nil_append, hhead]

end Lexical

namespace Surroundings

/-- The names that lead from the source to the target of a link. -/
def targetNames (site : Surroundings) (link : String) : List String :=
  (Lexical.components (site.sitePath link)).filter Path.isKept

/-- **A link that leads out of the source**, by its text: its normal form goes up. -/
def LeadsOut (site : Surroundings) (link : String) : Prop :=
  (Lexical.components (site.sitePath link)).head? = some ".."

instance (site : Surroundings) (link : String) : Decidable (site.LeadsOut link) :=
  inferInstanceAs (Decidable (_ = _))

/-- The path of a link is read off the page's directory, not off the files. -/
theorem sitePath_congr {site site' : Surroundings} (h : site.directory = site'.directory) (link : String) :
    site.sitePath link = site'.sitePath link := by
  unfold sitePath
  rw [h]

theorem target_descend {site : Surroundings} (hroot : site.sourceRoot.IsProper) (link : String) :
    site.target link = site.sourceRoot.descend (site.targetNames link) := by
  have hslash : ∀ part ∈ Lexical.components (site.sitePath link), '/' ∉ part.toList := by
    intro part hpart
    unfold Lexical.components at hpart
    obtain ⟨piece, hpiece, rfl⟩ := List.mem_map.1 hpart
    rw [String.toList_ofList]
    exact Text.notMem_of_mem_splitAt hpiece
  unfold target fullPath
  rw [Path.ofString_foldl_join _ hslash, Path.ofString_toString hroot]
  rfl

theorem parent_notMem_targetNames {site : Surroundings} {link : String} (h : ¬ site.LeadsOut link) :
    ".." ∉ site.targetNames link := by
  obtain ⟨path, hpath⟩ : ∃ path, site.sitePath link = String.ofList (Lexical.normalizeList path) := by
    unfold sitePath
    split
    · exact ⟨_, rfl⟩
    · exact ⟨_, rfl⟩
  unfold LeadsOut targetNames at *
  rw [hpath] at h ⊢
  intro hmem
  have hmem' := (List.mem_filter.1 hmem).1
  unfold Lexical.components at h hmem'
  rw [String.toList_ofList] at h hmem'
  obtain ⟨piece, hpiece, heq⟩ := List.mem_map.1 hmem'
  obtain rfl : piece = Lexical.parentPart := by
    rw [← String.toList_ofList (l := piece), heq]
    rfl
  rw [List.head?_map, Lexical.head?_splitAt_normalizeList hpiece] at h
  exact h rfl

section

variable {site : Surroundings} {t : FileTree} {base : Location} (hroot : site.sourceRoot.IsProper)
  (h : FileTree.Alike base site.files t) (hbase : site.files.locate site.sourceRoot = .ok base)
  (hbase' : t.locate site.sourceRoot = .ok base) {link : String} (hlink : ¬ site.LeadsOut link)
include hroot h hbase hbase' hlink

theorem linkExists_eq : site.linkExists link = { site with files := t }.linkExists link := by
  have hup := parent_notMem_targetNames hlink
  have htarget := target_descend hroot link
  have htarget' : { site with files := t }.target link = site.sourceRoot.descend (site.targetNames link) := htarget
  unfold linkExists
  rw [htarget, htarget', Path.child_descend, h.pathExists_eq hbase hbase' hup,
    h.pathExists_eq hbase hbase' (by simpa [indexDocument] using hup)]

theorem servesIndex_eq : site.servesIndex link = { site with files := t }.servesIndex link := by
  have hup := parent_notMem_targetNames hlink
  have htarget := target_descend hroot link
  have htarget' : { site with files := t }.target link = site.sourceRoot.descend (site.targetNames link) := htarget
  unfold servesIndex
  rw [htarget, htarget', Path.child_descend, h.isDirectory_eq hbase hbase' hup,
    h.pathExists_eq hbase hbase' (by simpa [indexDocument] using hup)]

end

end Surroundings

/-! ## Modules -/

namespace Mapping

/-- **The link that the mapping of a tag follows.** -/
def followed? (table : RenameTable) (r : Tag) : Option String :=
  match handler? r with
  | some .hyperlink | some .stylesheet => (Attributes.passed table r.attributes).get? "href"
  | some .image | some .script         => (Attributes.passed table r.attributes).get? "src"
  | some .style | none                 => none

section

variable {site site' : Surroundings} {table : RenameTable} (hdir : site.directory = site'.directory)
include hdir

theorem resolveLink_congr {link : Option String} (h : ∀ l ∈ link, site.linkExists l = site'.linkExists l)
    (effectOnly : Bool) (i : Imports) : resolveLink site link effectOnly i = resolveLink site' link effectOnly i := by
  cases link with
  | none => rfl
  | some l =>
    unfold resolveLink
    simp only [h l rfl, hdir]

/-- **What becomes of a tag depends on its link alone**, by whether its target exists and is served by an index document. -/
theorem ofTag_congr {r : Tag} (hexists : ∀ l ∈ followed? table r, site.linkExists l = site'.linkExists l)
    (hroute : ∀ l ∈ followed? table r, linkRoute site l = linkRoute site' l) (i : Imports) :
    ofTag site table r i = ofTag site' table r i := by
  unfold followed? at hexists hroute
  unfold ofTag
  cases hkind : handler? r with
  | none => rfl
  | some handler =>
    rw [hkind] at hexists hroute
    cases handler with
    | hyperlink =>
      simp only [ofHyperlink]
      cases hhref : (Attributes.passed table r.attributes).get? "href" with
      | none => rfl
      | some href => simp only [hexists href hhref, hroute href hhref]
    | image => simp only [ofSource, resolveLink_congr hdir hexists]
    | script => simp only [ofScript, ofSource, resolveLink_congr hdir hexists]
    | style => rfl
    | stylesheet => simp only [ofStylesheet, resolveLink_congr hdir hexists]

theorem ofTags_congr : ∀ {tags : List Tag},
    (∀ r ∈ tags, ∀ l ∈ followed? table r, site.linkExists l = site'.linkExists l ∧ linkRoute site l = linkRoute site' l) →
      ∀ i, ofTags site table tags i = ofTags site' table tags i
  | [], _, _ => rfl
  | r :: tags, h, i => by
    rw [List.forall_mem_cons] at h
    have hrest := ofTags_congr h.2
    unfold ofTags
    rw [ofTag_congr hdir (fun l hl => (h.1 l hl).1) (fun l hl => (h.1 l hl).2)]
    simp only [hrest]

end

end Mapping

namespace Project

open FileTree (Alike)

/-- The tags of a document, from its bytes. -/
def tagsIn (p : Project) (bytes : List UInt8) : List Tag :=
  ((p.documentIn bytes).toOption.bind fun document => (tagsOf document.root).toOption).getD []

/-- What a document sees of its site. -/
def siteOf (p : Project) (files : FileTree) (rel : Path) : Surroundings := ⟨files, p.source, directoryOf rel⟩

/-- **No link of a document leads out of the source.** -/
def StaysInside (p : Project) (rel : Path) (bytes : List UInt8) : Prop :=
  ∀ tag ∈ p.tagsIn bytes, ∀ link ∈ Mapping.followed? p.renames tag, ¬ (p.siteOf .empty rel).LeadsOut link

instance (p : Project) (rel : Path) (bytes : List UInt8) : Decidable (p.StaysInside rel bytes) :=
  inferInstanceAs (Decidable (∀ tag ∈ p.tagsIn bytes, ∀ link ∈ Mapping.followed? p.renames tag, ¬ _))

variable {p : Project} {t t' : FileTree} {base : Location} {rel : Path} {bytes : List UInt8}

section

variable (hsource : p.source.IsProper) (h : Alike base t t') (hbase : t.locate p.source = .ok base)
  (hbase' : t'.locate p.source = .ok base)
include hsource h hbase hbase'

/-- **The conversion of a document depends on the bytes of the document and on where entries stand.** -/
theorem convert_congr (hinside : p.StaysInside rel bytes) : p.convert t rel bytes = p.convert t' rel bytes := by
  unfold convert
  cases hdocument : p.documentIn bytes with
  | error f => simp only [bind, Except.bind]
  | ok document =>
    cases htags : tagsOf document.root with
    | error f => simp only [bind, Except.bind, htags]
    | ok tags =>
      have htagsIn : p.tagsIn bytes = tags := by
        unfold tagsIn
        rw [hdocument, Except.toOption, Option.bind_some, htags]
        rfl
      have hdir : (p.siteOf t rel).directory = (p.siteOf t' rel).directory := rfl
      have hsame : ∀ r ∈ tags, ∀ l ∈ Mapping.followed? p.renames r,
          (p.siteOf t rel).linkExists l = (p.siteOf t' rel).linkExists l ∧
            Mapping.linkRoute (p.siteOf t rel) l = Mapping.linkRoute (p.siteOf t' rel) l := by
        intro r hr l hl
        have hpath : (p.siteOf t rel).sitePath l = (p.siteOf t' rel).sitePath l := Surroundings.sitePath_congr hdir l
        have hlink : ¬ (p.siteOf t rel).LeadsOut l := by
          have hempty := hinside r (htagsIn ▸ hr) l hl
          unfold Surroundings.LeadsOut at hempty ⊢
          have hsame : (p.siteOf .empty rel).sitePath l = (p.siteOf t rel).sitePath l :=
            Surroundings.sitePath_congr rfl l
          rwa [hsame] at hempty
        have hexists : (p.siteOf t rel).linkExists l = (p.siteOf t' rel).linkExists l :=
          Surroundings.linkExists_eq hsource h hbase hbase' hlink
        have hserves : (p.siteOf t rel).servesIndex l = (p.siteOf t' rel).servesIndex l :=
          Surroundings.servesIndex_eq hsource h hbase hbase' hlink
        refine ⟨hexists, ?_⟩
        unfold Mapping.linkRoute
        rw [hserves, hpath]
      have hpage : Mapping.ofPage (p.siteOf t rel) p.renames tags = Mapping.ofPage (p.siteOf t' rel) p.renames tags := by
        unfold Mapping.ofPage
        rw [Mapping.ofTags_congr hdir hsame]
      unfold siteOf at hpage
      simp only [bind, Except.bind, htags, hpage]

end

/-- **Documents with the same bytes in trees alike come out the same.** -/
theorem moduleOf_congr {names : List String} (hsource : p.source.IsProper) (h : Alike base t t')
    (hbase : t.locate p.source = .ok base) (hbase' : t'.locate p.source = .ok base) (hup : ".." ∉ names)
    (hown : t.get? (base ++ names) = t'.get? (base ++ names))
    (hinside : ∀ bytes, t.get? (base ++ names) = some (.file bytes) → p.StaysInside ⟨0, names⟩ bytes) :
    p.moduleOf t ⟨0, names⟩ = p.moduleOf t' ⟨0, names⟩ := by
  unfold moduleOf
  rw [Path.join_relative, FileTree.run_read, FileTree.run_read, ← h.locate_eq hbase hbase' hup]
  cases hplace : t.locate (p.source.descend names) with
  | error fault => rfl
  | ok loc =>
    obtain ⟨rfl, -⟩ := FileTree.locate_names hbase hup hplace
    simp only [← hown]
    cases hget : t.get? (base ++ names) with
    | none => rfl
    | some node =>
      cases node with
      | directory => rfl
      | file bytes => exact convert_congr hsource h hbase hbase' (hinside bytes hget)

/-- A walk is deep enough for whatever stands below a place. -/
theorem length_le_walkDepth {names : List String} (h : (t.get? (base ++ names)).isSome) : names.length ≤ walkDepth t := by
  obtain ⟨node, hget⟩ := Option.isSome_iff_exists.1 h
  unfold walkDepth
  by_cases hnil : base ++ names = []
  · rw [(List.append_eq_nil_iff.1 hnil).2]
    exact Nat.zero_le _
  · have hlt := FileTree.length_lt_depth hnil hget
    rw [List.length_append] at hlt
    omega

/-- **Trees alike below the source have the same source files.** -/
theorem sourceFiles_eq (h : Alike base t t') (ht : t.IsTree) (ht' : t'.IsTree) (hbase : t.locate p.source = .ok base)
    (hbase' : t'.locate p.source = .ok base) : p.sourceFiles t = p.sourceFiles t' := by
  unfold sourceFiles
  rw [← Path.descend_nil p.source]
  exact h.filesUnder_eq ht ht' hbase hbase' (by simp) fun more hsome =>
    ⟨length_le_walkDepth hsome, length_le_walkDepth (h.isSome more ▸ hsome)⟩

/-- **In a tree that has grown the source files are listed as they were**, but for those that were written. -/
theorem filter_sourceFiles {W D : Location → Prop} (ht : t.IsTree) (hbase : t.locate p.source = .ok base)
    (hgrown : FileTree.Extends W D t t') {q : Path → Bool}
    (hq : ∀ names name, q (p.source.descend (names ++ [name])) = true → ¬ W (base ++ (names ++ [name]))) :
    (p.sourceFiles t').filter q = (p.sourceFiles t).filter q := by
  have hdeep : t.filesUnder (walkDepth t) p.source = t.filesUnder (walkDepth t') p.source := by
    rw [← Path.descend_nil p.source]
    exact (Alike.of_get? fun _ => rfl).filesUnder_eq ht ht hbase hbase (by simp) fun more hsome =>
      ⟨length_le_walkDepth hsome, length_le_walkDepth (hgrown.isSome hsome)⟩
  unfold sourceFiles
  rw [hdeep, ← Path.descend_nil p.source]
  exact filter_filesUnder ht hgrown hbase hq (walkDepth t') (by simp)

end Project

end ReactSite
