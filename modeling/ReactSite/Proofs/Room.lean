import ReactSite.Proofs.Placing
/-!
# Room — when a visit comes out well

An output can be written where there is room for it: every name fits, no file stands on the way, and no directory and no
read-only file in the place itself (`HasRoom`).  Then the directories on the way are made (`exists_way`) and the file is
written, whether it is the module of a document that converts (`convertPage_ok`) or the copy of a file that is there
(`placeAsset_ok`).
-/
namespace ReactSite

open FileTree

namespace FileTree

variable {t : FileTree} {p : Path} {base : Location} {names : List String}

/-- **There is room** for a file at the place that names lead to. -/
structure HasRoom (t : FileTree) (base : Location) (names : List String) : Prop where
  way : ∀ k, k < names.length → ∀ content, t.get? (base ++ names.take k) ≠ some (.file content)
  place : t.IsWritable (base ++ names)

/-- **A path that the file system takes** for a file below another path. -/
structure Fits (p : Path) (names : List String) : Prop where
  ne_nil : names ≠ []
  isName : ∀ s ∈ names, IsName s
  fault : pathFault? (p.descend names) = none

instance (p : Path) (names : List String) : Decidable (Fits p names) :=
  decidable_of_iff (names ≠ [] ∧ (∀ s ∈ names, IsName s) ∧ pathFault? (p.descend names) = none)
    ⟨fun ⟨h₁, h₂, h₃⟩ => ⟨h₁, h₂, h₃⟩, fun ⟨h₁, h₂, h₃⟩ => ⟨h₁, h₂, h₃⟩⟩

theorem Fits.isPlain (h : Fits p names) : ∀ s ∈ names, IsPlain s := fun s hs => (h.isName s hs).toIsPlain

theorem Fits.namesEntry (h : Fits p names) (hp : p.IsProper) : Path.NamesEntry (p.descend names) :=
  namesEntry_descend hp h.ne_nil h.isPlain

section

variable (ht : t.IsTree) (hp : p.IsProper) (hbase : t.locate p = .ok base) (hdir : t.get? base = some .directory)
  (hfits : Fits p names) (hroom : HasRoom t base names)
include ht hp hbase hdir hfits hroom

/-- **Where there is room, the way is made**, and the place is there to be written to. -/
theorem exists_way : ∃ t₁, (makeDirectories (p.descend names).parent).run.run t = (.ok (), t₁) ∧
    t₁.slot (p.descend names) = .ok (base ++ names) ∧ t₁.IsWritable (base ++ names) ∧
      Extends Nowhere (OnTheWay base names) t t₁ := by
  obtain ⟨init, last, rfl⟩ := List.eq_nil_or_concat names |>.resolve_left hfits.ne_nil
  rw [List.concat_eq_append] at *
  have hinit : ∀ s ∈ init, IsName s := fun s hs => hfits.isName s (List.mem_append_left _ hs)
  have hfault : pathFault? ((p.descend init).descend [last]) = none := by
    rw [Path.descend_descend]
    exact hfits.fault
  have hfree : ∀ k content, t.get? (base ++ init.take k) ≠ some (.file content) := by
    intro k content
    have hway := hroom.way (min k init.length) (by rw [List.length_append, List.length_singleton]; omega) content
    rwa [List.take_append_of_le_length (by omega), ← List.take_eq_take_min] at hway
  obtain ⟨t₁, hmade, hdir₁⟩ := makeDirectories_descend ht hp hbase hdir hinit (pathFault?_of_descend hfault) hfree
  have hgrown : Extends Nowhere (OnTheWay base (init ++ [last])) t t₁ := by
    have hmake := extends_makeDirectories_descend (W := Nowhere) ht hp hbase fun s hs => (hinit s hs).toIsPlain
    rw [hmade] at hmake
    refine hmake.mono (fun _ => id) ?_
    rintro l ⟨j, hpos, hle, rfl⟩
    refine ⟨j, hpos, ?_, ?_⟩
    · rw [List.length_append, List.length_singleton]
      omega
    · rw [List.take_append_of_le_length hle]
  have hloc₁ : t₁.locate (p.descend init) = .ok (base ++ init) :=
    locate_of_get? (hgrown.isTree ht) (hgrown.locate hbase) (pathFault?_of_descend hfault) hdir₁
  have hslot := slot_child (hfits.isName last (by simp)) hfault hloc₁ hdir₁
  rw [Path.descend_descend, List.append_assoc] at hslot
  refine ⟨t₁, by rwa [Path.parent_descend], hslot, ⟨?_, fun hl => hroom.place.unlocked ((hgrown.locked_iff id).1 hl)⟩, hgrown⟩
  rw [hgrown.get?_eq id fun hway => ne_of_onTheWay hway rfl]
  exact hroom.place.notDirectory

/-- **Where there is room, a text is written.** -/
theorem writeText_ok (content : List UInt8) : ∃ t', (writeText (p.descend names) content).run.run t = (.ok (), t') := by
  obtain ⟨t₁, hmade, hslot, hplace, -⟩ := exists_way ht hp hbase hdir hfits hroom
  exact ⟨_, writeText_eq_ok.2 ⟨t₁, _, hmade, hslot, hplace, rfl⟩⟩

end

end FileTree

namespace Project

variable {p : Project} {w : Workspace} {path rel : Path} {out : Location} {names : List String}

section

variable (ht : w.files.IsTree) (hp : p.output.IsProper) (hout : w.files.locate p.output = .ok out)
  (hdir : w.files.get? out = some .directory) (hrel : p.relative w.files.current path = .ok rel)
  (hpath : p.outputPath rel = p.output.descend names) (hfits : Fits p.output names) (hroom : HasRoom w.files out names)
include ht hp hout hdir hrel hpath hfits hroom

/-- **A document that converts is converted** where there is room for its module. -/
theorem convertPage_ok (register : Bool) {text : String} (hmodule : p.moduleOf w.files rel = .ok text) :
    ∃ target w', (p.convertPage register path).run.run w = (.ok target, w') := by
  obtain ⟨t', hwrite⟩ := writeText_ok ht hp hout hdir hfits hroom (Text.encode text)
  rw [← hpath] at hwrite
  rw [run_convertPage, hrel]
  simp only [hmodule, hwrite]
  exact ⟨_, _, rfl⟩

/-- **An asset that is there is placed** where there is room for it. -/
theorem placeAsset_ok {a : Location} {bytes : List UInt8} (hname : p.checkName rel = .ok ())
    (hsource : w.files.locate path = .ok a) (ha : w.files.get? a = some (.file bytes)) (hne : out ++ names ≠ a) :
    ∃ target w', (p.placeAsset path).run.run w = (.ok target, w') := by
  obtain ⟨t₁, hmade, hslot, hplace, hgrown⟩ := exists_way ht hp hout hdir hfits hroom
  have hcopy := copy_ok (hgrown.locate hsource) ((hgrown.file_iff id bytes).2 ha) hslot hne hplace
  rw [run_placeAsset, (destination_eq_ok p).2 ⟨rel, hrel, hname, rfl⟩]
  simp only [hpath, hmade, hcopy]
  exact ⟨_, _, rfl⟩

end

end Project
end ReactSite
