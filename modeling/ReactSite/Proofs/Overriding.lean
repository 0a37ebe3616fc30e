import ReactSite.Proofs.Blocking
import ReactSite.Proofs.Extraction
import ReactSite.Proofs.Filing
import ReactSite.Proofs.Merging
import ReactSite.Proofs.Settling
import ReactSite.Yaml.Document
/-!
# Overriding — what comes of the user's configuration files, whatever their bytes are

A user's file overrides its section key by key when it holds a mapping, and what is malformed or empty says nothing; but
bytes that are no text, a scalar, and a list that is not one of pairs end the whole loading (`overrides_ofNode_iff`).  A
file that the user does not have gets the packaged text, which says what the packaged section holds
(`valueOf_packagedFile`).
-/
namespace ReactSite

open Yaml (Value)
open Yaml.Value (valueAt valueAt_mergePairs valueAt_mergePairs_eq_iff mergePairs)

namespace FileTree

/-! ## Files beside each other -/

variable {t : FileTree} {p q : Path}

theorem node?_eq_some_iff_slot {node : FileNode} :
    t.node? p = some node ↔ ∃ loc, t.slot p = .ok loc ∧ t.get? loc = some node := by
  rw [node?_eq_some]
  constructor
  · rintro ⟨loc, hloc, hget⟩
    exact ⟨loc, slot_of_locate hloc, hget⟩
  · rintro ⟨loc, hslot, hget⟩
    exact ⟨loc, locate_of_slot hslot (by simp [hget]), hget⟩

/-- **Writing a file leaves what else stands in its directory as it was.** -/
theorem node?_write_beside (hp : Path.NamesEntry p) (hq : Path.NamesEntry q) (hparent : q.parent = p.parent)
    (hname : q.name ≠ p.name) (content : List UInt8) : ((write p content).run.run t).2.node? q = t.node? q := by
  rcases write_cases p content t with ⟨e, hrun⟩ | ⟨loc, hslot, hplace, hrun⟩ <;> rw [hrun]
  have hgrown : Extends Anywhere Anywhere t (t.put loc (.file content)) :=
    extends_put_file hp.proper hp.ne_empty hp.ne_parent hslot hplace.notDirectory content trivial
  obtain ⟨-, -, dir, hdir, hget, rfl⟩ := (slot_eq_ok hp.ne_empty hp.ne_parent).1 hslot
  rw [← hparent] at hdir
  have hsame : (t.put (dir ++ [p.name]) (.file content)).slot q = t.slot q :=
    (slot_congr hq.ne_empty hq.ne_parent hdir (hgrown.locate hdir) hget (hgrown.directory hget)).symm
  apply Option.ext
  intro node
  rw [node?_eq_some_iff_slot, node?_eq_some_iff_slot, hsame]
  refine exists_congr fun place => and_congr_right fun hslot' => ?_
  obtain ⟨-, -, dir', hdir', -, rfl⟩ := (slot_eq_ok hq.ne_empty hq.ne_parent).1 hslot'
  rw [get?_put_of_ne fun e => hname ?_]
  have hlast := (List.append_inj' e rfl).2
  exact List.singleton_inj.1 hlast

/-- **What stands in a directory is looked at**, unless its path is too long. -/
theorem look_child {name : String} (hname : IsName name) (hdir : t.isDirectory p = true) : t.look (p.child name) =
    if pathFault? (p.child name) = some .nameTooLong then .error ⟨.nameTooLong, (p.child name).toString⟩
      else .ok (t.node? (p.child name)) := by
  obtain ⟨loc, hloc, hget⟩ := node?_eq_some.1 (by simpa [isDirectory] using hdir)
  unfold look node?
  cases hfault : pathFault? (p.child name) with
  | some fault =>
    have herror : t.locate (p.child name) = .error fault := by
      rw [locate, hfault]
    rw [herror]
    cases fault <;> rfl
  | none =>
    rw [Path.child_eq] at hfault ⊢
    cases hthere : t.get? (loc ++ [name]) with
    | some node =>
      rw [locate_of_slot (slot_child hname hfault hloc hget) (by rw [hthere]; rfl)]
      rfl
    | none =>
      have hmissing : t.locate (p.descend [name]) = .error .noEntry := by
        rw [locate, hfault]
        simp only [origin_descend, Path.parts_descend, follow_append, (locate_eq_ok.1 hloc).2, Except.bind, follow, hget,
          if_neg hname.ne_parent, if_neg (Nat.not_lt.2 hname.size_le), hthere]
        rfl
      rw [hmissing]
      rfl

end FileTree

namespace Config

open FileTree (IsName node?_write_beside)

/-! ## The user's files -/

namespace Section

theorem fileName_injective {s s' : Section} (h : s.fileName = s'.fileName) : s = s' := by
  cases s <;> cases s' <;> first | rfl | exact absurd h (by decide)

theorem isName_fileName (s : Section) : IsName s.fileName := by
  cases s <;> decide

end Section

variable {yaml : Yaml.Reader} {dir : Path} {t t' t'' : FileTree}

theorem namesEntry_file (hdir : dir.IsProper) (s : Section) : FileTree.Path.NamesEntry (dir.child s.fileName) := by
  rw [Path.child_eq]
  refine FileTree.namesEntry_descend hdir (List.cons_ne_nil _ _) fun name hname => ?_
  rw [List.mem_singleton.1 hname]
  exact s.isName_fileName.toIsPlain

theorem run_provideFile (dir : Path) (s : Section) (t : FileTree) : ((provideFile dir s).run.run t).2 =
    if t.look (dir.child s.fileName) = .ok none
      then ((FileTree.write (dir.child s.fileName) (Text.encode s.packagedFile)).run.run t).2 else t := by
  unfold provideFile
  rw [run_bind, run_get]
  simp only
  rcases t.look (dir.child s.fileName) with e | _ | node
  · rw [if_neg (by simp)]
    rfl
  · simp only [if_true, run_tryCatch]
    rcases (FileTree.write (dir.child s.fileName) (Text.encode s.packagedFile)).run.run t with ⟨e | u, t'⟩ <;> rfl
  · rw [if_neg (by simp)]
    rfl

/-- **A tree in which missing files were made**: the user's directory stands, and what the user has is as it was. -/
structure Provided (dir : Path) (t t' : FileTree) : Prop where
  directory : t'.isDirectory dir = true
  files : ∀ s : Section, t'.look (dir.child s.fileName) = t.look (dir.child s.fileName) ∨
    (t.look (dir.child s.fileName) = .ok none ∧
      t'.look (dir.child s.fileName) = .ok (some (.file (Text.encode s.packagedFile))))

theorem Provided.refl (h : t.isDirectory dir = true) : Provided dir t t := ⟨h, fun _ => .inl rfl⟩

theorem Provided.trans (h : Provided dir t t') (h' : Provided dir t' t'') : Provided dir t t'' := by
  refine ⟨h'.directory, fun s => ?_⟩
  rcases h.files s with h | ⟨hnone, h⟩
  · rcases h'.files s with h' | ⟨hnone', h'⟩
    · exact .inl (h'.trans h)
    · exact .inr ⟨h ▸ hnone', h'⟩
  · rcases h'.files s with h' | ⟨hnone', -⟩
    · exact .inr ⟨hnone, h'.trans h⟩
    · rw [h] at hnone'
      cases hnone'

theorem provided_provideFile (hdir : dir.IsProper) (s : Section) (h : t.isDirectory dir = true) :
    Provided dir t ((provideFile dir s).run.run t).2 := by
  rw [run_provideFile]
  split
  · rename_i hmissing
    have hplace := namesEntry_file hdir s
    have hgrown : FileTree.Extends FileTree.Anywhere FileTree.Anywhere t
        ((FileTree.write (dir.child s.fileName) (Text.encode s.packagedFile)).run.run t).2 :=
      FileTree.extends_write hplace fun _ _ => trivial
    refine ⟨hgrown.isDirectory h, fun s' => ?_⟩
    by_cases hs : s' = s
    · subst hs
      rcases FileTree.write_cases (dir.child s'.fileName) (Text.encode s'.packagedFile) t with
        ⟨e, hrun⟩ | ⟨loc, hslot, hfree, hrun⟩ <;> rw [hrun]
      · exact .inl rfl
      · exact .inr ⟨hmissing, FileTree.look_eq_some.2 (FileTree.node?_put hplace hslot hfree.notDirectory)⟩
    · refine .inl ?_
      rw [FileTree.look_child s'.isName_fileName (hgrown.isDirectory h), FileTree.look_child s'.isName_fileName h,
        node?_write_beside hplace (namesEntry_file hdir s')]
      · simp [Path.child, Path.parent]
      · simpa [Path.child, Path.name] using fun e => hs (Section.fileName_injective e)
  · exact .refl h

/-- The files are made one after the other, up to the first place that cannot be looked at. -/
theorem provided_forM (hdir : dir.IsProper) : ∀ (sections : List Section) {t : FileTree}, t.isDirectory dir = true →
    Provided dir t ((sections.forM (provideFile dir)).run.run t).2
  | [], _, h            => .refl h
  | s :: sections, t, h => by
    have hstep : (s :: sections).forM (provideFile dir) = provideFile dir s >>= fun _ => sections.forM (provideFile dir) := rfl
    have hfirst := provided_provideFile hdir s h
    rw [hstep, run_bind]
    rcases hrun : (provideFile dir s).run.run t with ⟨e | u, t'⟩ <;> rw [hrun] at hfirst
    · exact hfirst
    · exact hfirst.trans (provided_forM hdir sections hfirst.directory)

theorem run_provide (dir : Path) (t : FileTree) : ((provide dir).run t).2 =
    match (FileTree.makeDirectories dir).run.run t with
    | (.error _, t') => t'
    | (.ok _, t')    => ((Section.all.forM (provideFile dir)).run.run t').2 := by
  have hrun : ((provide dir).run t).2 = ((do
      FileTree.makeDirectories dir
      Section.all.forM (provideFile dir) : FileAction FileError Unit).run.run t).2 := rfl
  rw [hrun, run_bind]
  rcases (FileTree.makeDirectories dir).run.run t with ⟨e | u, t'⟩ <;> rfl

theorem run_load (yaml : Yaml.Reader) (dir : Path) (t : FileTree) : ((load yaml dir).run.run t).1 = (do
    let files := ((provide dir).run t).2
    return { renames := ← sectionIn yaml files dir .renames
             rules := ← sectionIn yaml files dir .rules
             logging := ← sectionIn yaml files dir .logging }) := by
  have hprovide : (ExceptT.lift (provide dir) : FileAction Failure Unit).run.run t = (.ok (), ((provide dir).run t).2) := rfl
  unfold load
  rw [run_bind, hprovide]
  generalize ((provide dir).run t).2 = files
  simp only [run_bind, run_get]
  have hlift : ∀ s, (liftM (sectionIn yaml files dir s) : FileAction Failure _).run.run files =
    (sectionIn yaml files dir s, files) := fun _ => rfl
  simp only [hlift]
  cases sectionIn yaml files dir .renames <;> cases sectionIn yaml files dir .rules <;>
    cases sectionIn yaml files dir .logging <;> rfl

/-! ## What the files say -/

/-- What the operating system answers when it is asked what stands at a place. -/
abbrev Answer := Except FileError (Option FileNode)

/-- **What stands at the place of a section's file**, once the user's directory is made. -/
def userNode (t : FileTree) (dir : Path) (s : Section) : Answer :=
  ((FileTree.makeDirectories dir).run.run t).2.look (dir.child s.fileName)

/-- **What a section becomes**, with what stands at the place of its file. -/
def ofNode (yaml : Yaml.Reader) (s : Section) : Answer → Except Failure (List (Value × Value))
  | .error e => .error (.file e)
  | .ok (some (.file bytes)) => do
    match ← valueOf yaml bytes with
    | some value => overlay s.packaged value
    | none       => return s.packaged
  | .ok _ => .ok s.packaged

theorem sectionIn_eq (yaml : Yaml.Reader) (files : FileTree) (dir : Path) (s : Section) :
    sectionIn yaml files dir s = ofNode yaml s (files.look (dir.child s.fileName)) := by
  unfold sectionIn ofNode
  rcases files.look (dir.child s.fileName) with _ | _ | _ | _ <;> rfl

/-- **A reader that reads the packaged texts**: each says what the packaged section holds. -/
def ReadsPackaged (yaml : Yaml.Reader) : Prop :=
  ∀ s : Section, valueOf yaml (Text.encode s.packagedFile) = .ok (some (.mapping s.packaged))

theorem readsPackaged_read : ReadsPackaged Yaml.read := by
  intro s
  cases s <;> decide +kernel

theorem mergePairs_packaged (s : Section) : mergePairs s.packaged s.packaged = s.packaged := by
  cases s <;> decide +kernel

theorem ofNode_packagedFile (hyaml : ReadsPackaged yaml) (s : Section) :
    ofNode yaml s (.ok (some (.file (Text.encode s.packagedFile)))) = .ok s.packaged := by
  have hoverlay : overlay s.packaged (.mapping s.packaged) = .ok s.packaged := by
    unfold overlay
    split
    · rfl
    · simp only [mergePairs_packaged]
  unfold ofNode
  simp only [hyaml s]
  exact hoverlay

/-- **A section is read as if nothing had been made**: a file that was made says what the section held before. -/
theorem sectionIn_provide (hyaml : ReadsPackaged yaml) (hdir : dir.IsProper) (t : FileTree) (s : Section) :
    sectionIn yaml ((provide dir).run t).2 dir s = ofNode yaml s (userNode t dir s) := by
  rw [sectionIn_eq, run_provide]
  unfold userNode
  rcases hmade : (FileTree.makeDirectories dir).run.run t with ⟨e | u, t'⟩
  · rfl
  · have hthere := FileTree.isDirectory_of_makeDirectories hdir hmade
    rcases (provided_forM hdir Section.all hthere).files s with h | ⟨hnone, h⟩
    · simp only [h]
    · simp only [h, hnone, ofNode_packagedFile hyaml s]
      rfl

/-- The item stands for the pair. -/
def IsPair (item : Value) (p : Value × Value) : Prop := item.items? = some [p.1, p.2] ∧ p.1.isKey = true

theorem pairOf_eq_ok {item : Value} {index : Nat} {p : Value × Value} : pairOf item index = .ok p ↔ IsPair item p := by
  obtain ⟨key, value⟩ := p
  unfold pairOf IsPair
  split
  · rename_i key' value' h
    rw [h]
    by_cases hkey : key'.isKey = true
    · rw [if_pos hkey]
      constructor
      · rintro ⟨⟩
        exact ⟨rfl, hkey⟩
      · rintro ⟨⟨⟩, -⟩
        rfl
    · rw [if_neg hkey]
      refine iff_of_false (by simp) ?_
      rintro ⟨⟨⟩, hkey'⟩
      exact hkey hkey'
  · rename_i items hno h
    refine iff_of_false (by simp) ?_
    rintro ⟨h', -⟩
    rw [h'] at h
    exact hno key value (Option.some.inj h).symm
  · rename_i h
    refine iff_of_false (by simp) ?_
    rintro ⟨h', -⟩
    rw [h] at h'
    cases h'

theorem mapM_pairOf_eq_ok : ∀ {items : List Value} {pairs : List (Value × Value)} {n : Nat},
    (items.zipIdx n).mapM (fun i => pairOf i.1 i.2) = .ok pairs ↔ List.Forall₂ IsPair items pairs
  | [], pairs, n            => by simp [pure, Except.pure, eq_comm]
  | item :: items, pairs, n => by
    rw [List.zipIdx_cons, List.mapM_cons]
    constructor
    · intro h
      obtain ⟨p, hp, h⟩ := bind_eq_ok.1 h
      obtain ⟨rest, hrest, h⟩ := bind_eq_ok.1 h
      cases h
      exact .cons (pairOf_eq_ok.1 hp) (mapM_pairOf_eq_ok.1 hrest)
    · rintro (_ | ⟨hp, hrest⟩)
      rw [pairOf_eq_ok.2 hp, mapM_pairOf_eq_ok.2 hrest]
      rfl

/-- **One mapping overrides another**: under every key stands what the upper one has there last, or else what the other
one has. -/
def Overrides (base upper out : List (Value × Value)) : Prop :=
  ∀ key, valueAt out key = (valueAt upper.reverse key).or (valueAt base key)

/-- **A value that does no more than it may over a mapping**: it says nothing, it is a mapping, or it is a list of pairs
that the mapping has already. -/
inductive IsFitting (base : List (Value × Value)) : Value → Prop
  | empty {value : Value} (h : value.isEmpty = true) : IsFitting base value
  | mapping (pairs : List (Value × Value)) : IsFitting base (.mapping pairs)
  | pairs {value : Value} {items : List Value} {pairs : List (Value × Value)} (hitems : value.items? = some items)
      (hpairs : List.Forall₂ IsPair items pairs) (hsame : ∀ p ∈ pairs, valueAt pairs.reverse p.1 = valueAt base p.1) :
      IsFitting base value

/-- The pairs of a mapping; other values have none. -/
def pairsOf : Value → List (Value × Value)
  | .mapping pairs => pairs
  | _              => []

/-- **A value comes over a mapping as it should just when it is one that fits.** -/
theorem overrides_overlay_iff (base : List (Value × Value)) (value : Value) :
    (∃ out, overlay base value = .ok out ∧ Overrides base (pairsOf value) out) ↔ IsFitting base value := by
  unfold overlay
  by_cases hempty : value.isEmpty = true
  · rw [if_pos hempty]
    have hpairs : pairsOf value = [] := by
      cases value with
      | mapping pairs => exact List.isEmpty_iff.1 hempty
      | _ => rfl
    rw [hpairs]
    exact iff_of_true ⟨base, rfl, fun _ => rfl⟩ (.empty hempty)
  rw [if_neg hempty]
  split
  · rename_i pairs
    exact iff_of_true ⟨_, rfl, valueAt_mergePairs pairs base⟩ (.mapping pairs)
  · rename_i hmapping
    have hpairs : pairsOf value = [] := by
      cases value with
      | mapping pairs => exact absurd rfl (hmapping pairs)
      | _ => rfl
    rw [hpairs]
    constructor
    · rintro ⟨out, hout, hsame⟩
      split at hout
      · rename_i items hitems
        obtain ⟨pairs, hmapM, hout⟩ := bind_eq_ok.1 hout
        cases hout
        exact .pairs hitems (mapM_pairOf_eq_ok.1 hmapM) ((valueAt_mergePairs_eq_iff pairs base).1 hsame)
      · cases hout
    · rintro (h | pairs | ⟨hitems, hpairs, hsame⟩)
      · exact absurd h hempty
      · exact absurd rfl (hmapping pairs)
      · rw [hitems]
        refine ⟨_, ?_, (valueAt_mergePairs_eq_iff _ base).2 hsame⟩
        simp only
        rw [mapM_pairOf_eq_ok.2 hpairs]
        rfl

/-- **What the user says of a section**: the pairs of the mapping that stands at the place of its file. -/
def said (yaml : Yaml.Reader) : Answer → List (Value × Value)
  | .ok (some (.file bytes)) =>
    match valueOf yaml bytes with
    | .ok (some value) => pairsOf value
    | _                => []
  | _ => []

/-- **What a section may find at the place of its file**: nothing, a directory, or a text that can be read and whose value fits. -/
inductive IsTolerable (yaml : Yaml.Reader) (s : Section) : Answer → Prop
  | nothing : IsTolerable yaml s (.ok none)
  | directory : IsTolerable yaml s (.ok (some .directory))
  | text {bytes : List UInt8} (h : IsTextWith yaml (IsFitting s.packaged) bytes) : IsTolerable yaml s (.ok (some (.file bytes)))

/-- **A section is overridden as it should be just when what it finds is tolerable.** -/
theorem overrides_ofNode_iff (yaml : Yaml.Reader) (s : Section) (node : Answer) :
    (∃ out, ofNode yaml s node = .ok out ∧ Overrides s.packaged (said yaml node) out) ↔ IsTolerable yaml s node := by
  unfold ofNode said
  rcases node with e | _ | bytes | _
  · refine iff_of_false ?_ fun h => by cases h
    rintro ⟨out, hout, -⟩
    cases hout
  · exact iff_of_true ⟨_, rfl, fun _ => rfl⟩ .nothing
  · have hbytes : IsTolerable yaml s (.ok (some (.file bytes))) ↔ IsTextWith yaml (IsFitting s.packaged) bytes :=
      ⟨fun | .text h => h, .text⟩
    rw [hbytes]
    cases hvalue : valueOf yaml bytes with
    | error f =>
      refine iff_of_false ?_ (not_isTextWith_of_valueOf_eq_error hvalue).1
      rintro ⟨out, hout, -⟩
      simp only [hvalue] at hout
      cases hout
    | ok value? =>
      rw [isTextWith_of_valueOf_eq_ok hvalue]
      simp only [hvalue]
      cases value? with
      | none => exact iff_of_true ⟨_, rfl, fun _ => rfl⟩ fun _ h => by cases h
      | some value =>
        refine (overrides_overlay_iff s.packaged value).trans ?_
        simp
  · exact iff_of_true ⟨_, rfl, fun _ => rfl⟩ .directory

/-- What a configuration has for a section. -/
def held (c : Config) : Section → List (Value × Value)
  | .renames => c.renames
  | .rules   => c.rules
  | .logging => c.logging

/-- **The configuration is loaded just when each of its sections is read.** -/
theorem load_iff {P : Section → List (Value × Value) → Prop} :
    (∃ c, ((load yaml dir).run.run t).1 = .ok c ∧ ∀ s, P s (c.held s)) ↔
      ∀ s, ∃ out, sectionIn yaml ((provide dir).run t).2 dir s = .ok out ∧ P s out := by
  rw [run_load]
  constructor
  · rintro ⟨c, hc, hP⟩
    obtain ⟨renames, hrenames, hc⟩ := bind_eq_ok.1 hc
    obtain ⟨rules, hrules, hc⟩ := bind_eq_ok.1 hc
    obtain ⟨logging, hlogging, hc⟩ := bind_eq_ok.1 hc
    cases hc
    intro s
    cases s with
    | renames => exact ⟨renames, hrenames, hP .renames⟩
    | rules   => exact ⟨rules, hrules, hP .rules⟩
    | logging => exact ⟨logging, hlogging, hP .logging⟩
  · intro h
    obtain ⟨renames, hrenames, hP⟩ := h .renames
    obtain ⟨rules, hrules, hP'⟩ := h .rules
    obtain ⟨logging, hlogging, hP''⟩ := h .logging
    refine ⟨⟨renames, rules, logging⟩, ?_, ?_⟩
    · exact bind_eq_ok.2 ⟨_, hrenames, bind_eq_ok.2 ⟨_, hrules, bind_eq_ok.2 ⟨_, hlogging, rfl⟩⟩⟩
    · intro s
      cases s <;> assumption

end Config

/-- **What comes of configuration files**, whatever reads them.  A project file gives settings or an error of the configuration
just when it is a text that can be read and its directories can be looked for; the configuration is loaded, each section being
the packaged one with the user's pairs over it, just when each of the user's files is a text that can be read and says nothing,
a mapping, or what the section has already. -/
theorem tolerated_iff (yaml : Yaml.Reader) (hyaml : Config.ReadsPackaged yaml) (files : FileTree) (path : Path) (dir : String) :
    (∀ bytes, files.look path = .ok (some (.file bytes)) →
      (Settings.IsTold (Settings.read yaml files path) ↔ Config.IsTextWith yaml Settings.HasPlaces bytes)) ∧
    ((∃ c, ((Config.load yaml (.ofString dir)).run.run files).1 = .ok c ∧ ∀ s : Config.Section,
        Config.Overrides s.packaged (Config.said yaml (Config.userNode files (.ofString dir) s)) (c.held s)) ↔
      ∀ s : Config.Section, Config.IsTolerable yaml s (Config.userNode files (.ofString dir) s)) := by
  refine ⟨fun _ h => Settings.isTold_read_iff h, ?_⟩
  rw [Config.load_iff]
  refine forall_congr' fun s => ?_
  rw [Config.sectionIn_provide hyaml (Path.isProper_ofString dir), Config.overrides_ofNode_iff]

/-- A project file that is cut short, and a user who renames the entry component. -/
def ownRules : FileTree where
  entries := [(["site.yml"], .file (Text.encode "src_dir: [a\n")), (["conf"], .directory),
    (["conf", "transpiler.yml"], .file (Text.encode "entry_component: Home\n"))]

theorem tolerated_ownRules :
    Settings.IsTold (Settings.read Yaml.read ownRules (.ofString "/site.yml")) ∧
    ∃ c, ((Config.load Yaml.read (.ofString "/conf")).run.run ownRules).1 = .ok c ∧
      valueAt c.rules (.text "entry_component") = some (.text "Home") ∧
      valueAt c.rules (.text "output_subdir") = some (.text "src") := by
  have hlook : ownRules.look (.ofString "/site.yml") = .ok (some (.file (Text.encode "src_dir: [a\n"))) := by
    decide +kernel
  have hsite : Config.valueOf Yaml.read (Text.encode "src_dir: [a\n") = .ok none := by decide +kernel
  have hrules : Config.valueOf Yaml.read (Text.encode "entry_component: Home\n") =
      .ok (some (.mapping [(.text "entry_component", .text "Home")])) := by decide +kernel
  have hnode : ∀ s, Config.userNode ownRules (.ofString "/conf") s =
      .ok (if s = .rules then some (.file (Text.encode "entry_component: Home\n")) else none) := by
    intro s
    cases s <;> decide +kernel
  have htolerated := tolerated_iff Yaml.read Config.readsPackaged_read ownRules (.ofString "/site.yml") "/conf"
  constructor
  · exact (htolerated.1 _ hlook).2 ((Config.isTextWith_of_valueOf_eq_ok hsite).2 (by simp))
  · obtain ⟨c, hload, hc⟩ := htolerated.2.2 (by
      intro s
      rw [hnode]
      split
      · refine .text ((Config.isTextWith_of_valueOf_eq_ok hrules).2 ?_)
        rintro _ ⟨⟩
        exact .mapping _
      · exact .nothing)
    have hover := hc .rules
    rw [hnode, if_pos rfl, Config.said] at hover
    simp only [hrules] at hover
    refine ⟨c, hload, (hover _).trans ?_, (hover _).trans ?_⟩ <;> decide +kernel

/-- Files that are no text. -/
def brokenBytes : FileTree where
  entries := [(["config.json"], .file [0xff]), (["conf"], .directory), (["conf", "props_map.yml"], .file [0xff])]

/-- **Bytes that are no text are not tolerated**, neither in a project file nor in a user's file. -/
theorem not_tolerated_brokenBytes :
    Settings.read Yaml.read brokenBytes (.ofString "/config.json") = .error (.undecodable ⟨0, [0xff], true⟩) ∧
    ¬ Settings.IsTold (Settings.read Yaml.read brokenBytes (.ofString "/config.json")) ∧
    ¬ ∃ c, ((Config.load Yaml.read (.ofString "/conf")).run.run brokenBytes).1 = .ok c := by
  have hread : Settings.read Yaml.read brokenBytes (.ofString "/config.json") = .error (.undecodable ⟨0, [0xff], true⟩) := by
    decide +kernel
  have hload : ((Config.load Yaml.read (.ofString "/conf")).run.run brokenBytes).1.isOk = false := by decide +kernel
  refine ⟨hread, hread ▸ Settings.not_isTold (by simp), ?_⟩
  rintro ⟨c, hc⟩
  rw [hc] at hload
  cases hload

end ReactSite
