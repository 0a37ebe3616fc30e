import ReactSite.Config.Settings
import ReactSite.Proofs.Encoding
import ReactSite.Proofs.Spelling
/-!
# Settling — what comes of a project file, whatever its bytes are

A configuration file is a text that can be read, and may say a value (`IsTextWith`).  A project file that says none, or one
that is no mapping or names too little, is told of as an error of the configuration; bytes that are no text are not, nor is
what the reader raises, nor a directory whose name cannot be made or holds the character NUL (`isTold_read_iff`).
-/
namespace ReactSite

open Yaml (Value)

namespace Config

/-- **The bytes are a text that can be read, and a value that it says is as it should be.** -/
def IsTextWith (yaml : Yaml.Reader) (P : Value → Prop) (bytes : List UInt8) : Prop :=
  ∃ text : String, bytes = Text.encode text ∧ ∃ value?, yaml (Text.unifyNewlines text.toList) = .ok value? ∧
    ∀ value, value? = some value → P value

variable {yaml : Yaml.Reader} {P : Value → Prop} {bytes : List UInt8}

theorem valueOf_encode (yaml : Yaml.Reader) (text : String) : valueOf yaml (Text.encode text) =
    (yaml (Text.unifyNewlines text.toList)).mapError .raised := by
  have hdecode : Text.decode (Text.encode text) = .ok text.toList :=
    Text.decode_eq_ok_iff.2 (by rw [String.ofList_toList])
  rw [valueOf, hdecode]

/-- What a configuration file says is what is read from its text. -/
theorem valueOf_eq_ok {value? : Option Value} : valueOf yaml bytes = .ok value? ↔
    ∃ text : String, bytes = Text.encode text ∧ yaml (Text.unifyNewlines text.toList) = .ok value? := by
  constructor
  · intro h
    cases hdecode : Text.decode bytes with
    | error part =>
      rw [valueOf, hdecode] at h
      cases h
    | ok chars =>
      obtain rfl := Text.decode_eq_ok_iff.1 hdecode
      refine ⟨_, rfl, ?_⟩
      rw [valueOf_encode] at h
      cases hread : yaml (Text.unifyNewlines (String.ofList chars).toList) with
      | error e => rw [hread] at h; cases h
      | ok read => rw [hread] at h; cases h; rfl
  · rintro ⟨text, rfl, hread⟩
    rw [valueOf_encode, hread]
    rfl

theorem isTextWith_iff : IsTextWith yaml P bytes ↔ ∃ value?, valueOf yaml bytes = .ok value? ∧
    ∀ value, value? = some value → P value := by
  simp only [valueOf_eq_ok]
  constructor
  · rintro ⟨text, htext, value?, hread, hvalue⟩
    exact ⟨value?, ⟨text, htext, hread⟩, hvalue⟩
  · rintro ⟨value?, ⟨text, htext, hread⟩, hvalue⟩
    exact ⟨text, htext, value?, hread, hvalue⟩

theorem isTextWith_of_valueOf_eq_ok {value? : Option Value} (h : valueOf yaml bytes = .ok value?) :
    IsTextWith yaml P bytes ↔ ∀ value, value? = some value → P value := by
  rw [isTextWith_iff, h]
  simp

theorem not_isTextWith_of_valueOf_eq_error {f : Failure} (h : valueOf yaml bytes = .error f) :
    ¬ IsTextWith yaml P bytes ∧ ∀ e, f ≠ .conversion e := by
  constructor
  · rw [isTextWith_iff, h]
    rintro ⟨value?, ⟨⟩, -⟩
  · rintro e rfl
    unfold valueOf at h
    split at h
    · rename_i text htext
      cases hread : yaml (Text.unifyNewlines text) <;> rw [hread] at h <;> cases h
    · cases h

end Config

theorem Path.hasNul_ofString (s : String) : (Path.ofString s).hasNul = decide ('\x00' ∈ s.toList) := by
  rw [Bool.eq_iff_iff, decide_eq_true_iff, ← Text.exists_mem_splitAt (show '\x00' ≠ '/' by decide), hasNul,
    List.any_eq_true]
  constructor
  · rintro ⟨part, hpart, hnul⟩
    obtain ⟨piece, hpiece, rfl⟩ := List.mem_map.1 (List.mem_filter.1 hpart).1
    exact ⟨piece, hpiece, by simpa using hnul⟩
  · rintro ⟨piece, hpiece, hnul⟩
    refine ⟨String.ofList piece, List.mem_filter.2 ⟨List.mem_map.2 ⟨piece, hpiece, rfl⟩, ?_⟩, by simpa using hnul⟩
    have hempty : String.ofList piece ≠ "" := by
      intro e
      rw [String.ofList_injective (e.trans (by decide : "" = String.ofList []))] at hnul
      cases hnul
    have hdot : String.ofList piece ≠ "." := by
      intro e
      rw [String.ofList_injective (e.trans (by decide : "." = String.ofList ['.']))] at hnul
      exact absurd hnul (by decide)
    simp [hempty, hdot]

namespace Settings

/-! ## The project file -/

/-- **The settings, or an error of the configuration.** -/
def IsTold (r : Except Failure Settings) : Prop :=
  (∃ s, r = .ok s) ∨ ∃ e, r = .error (.conversion e) ∧ e.cause.kind = .configuration

/-- The value is the name of a place that can be looked for. -/
def IsPlaceName (v : Value) : Prop := ∃ name : String, v.asText = .ok name ∧ '\x00' ∉ name.toList

/-- **The two directories can be looked for**, where a value names them. -/
def HasPlaces (value : Value) : Prop :=
  ∀ pairs source dest, value = .mapping pairs → setting? pairs sourceKey = some source →
    setting? pairs destKey = some dest → IsPlaceName source ∧ IsPlaceName dest

theorem isTold_of_cause {cause : Cause} {file : Option String} (h : cause.kind = .configuration) :
    IsTold (.error (.of cause file)) := .inr ⟨_, rfl, h⟩

theorem not_isTold {f : Failure} (h : ∀ e, f ≠ .conversion e) : ¬ IsTold (.error f) := by
  rintro (⟨s, hs⟩ | ⟨e, he, -⟩)
  · cases hs
  · exact h e (Except.error.inj he)

/-- **A place is found just when its name can be looked for**; no error of it is told of. -/
theorem rootFrom_cases (base : Location) (v : Value) : (IsPlaceName v ∧ ∃ p, rootFrom base v = .ok p) ∨
    (¬ IsPlaceName v ∧ ∃ f, rootFrom base v = .error f ∧ ∀ e, f ≠ .conversion e) := by
  unfold IsPlaceName rootFrom
  cases v.asText with
  | error e => exact .inr ⟨by simp, .raised e, rfl, by simp⟩
  | ok name =>
    have hnul := Path.hasNul_ofString name
    simp only [Except.mapError, bind, Except.bind, hnul]
    by_cases hmem : '\x00' ∈ name.toList
    · exact .inr ⟨by simp [hmem], _, if_pos (by simpa using hmem), by simp⟩
    · exact .inl ⟨⟨name, rfl, hmem⟩, _, if_neg (by simpa using hmem)⟩

theorem isTold_roots_iff {base : Location} {source dest : Value} :
    IsTold (do return ⟨← rootFrom base source, ← rootFrom base dest⟩) ↔ IsPlaceName source ∧ IsPlaceName dest := by
  rcases rootFrom_cases base source with ⟨hsource, p, hp⟩ | ⟨hsource, f, hf, hother⟩
  · rw [hp]
    rcases rootFrom_cases base dest with ⟨hdest, q, hq⟩ | ⟨hdest, f, hf, hother⟩
    · rw [hq]
      exact iff_of_true (.inl ⟨_, rfl⟩) ⟨hsource, hdest⟩
    · rw [hf]
      exact iff_of_false (not_isTold hother) fun h => hdest h.2
  · rw [hf]
    exact iff_of_false (not_isTold hother) fun h => hsource h.1

theorem isTold_ofValue_iff (file : String) (base : Location) (value : Value) :
    IsTold (ofValue file base value) ↔ HasPlaces value := by
  have hother : (∀ pairs, value ≠ .mapping pairs) → HasPlaces value := fun h pairs _ _ e => absurd e (h pairs)
  unfold ofValue
  cases value with
  | mapping pairs =>
    simp only
    cases hsource : setting? pairs sourceKey with
    | none =>
      refine iff_of_true (isTold_of_cause rfl) ?_
      rintro _ source dest ⟨rfl⟩ h
      rw [hsource] at h
      cases h
    | some source =>
      cases hdest : setting? pairs destKey with
      | none =>
        refine iff_of_true (isTold_of_cause rfl) ?_
        rintro _ source dest ⟨rfl⟩ - h
        rw [hdest] at h
        cases h
      | some dest =>
        simp only
        rw [isTold_roots_iff]
        constructor
        · rintro h _ source' dest' ⟨rfl⟩ hs hd
          rw [hsource] at hs
          rw [hdest] at hd
          cases hs
          cases hd
          exact h
        · exact fun h => h pairs source dest rfl hsource hdest
  | _ =>
    refine iff_of_true ?_ (hother fun pairs e => by cases e)
    simp only
    split
    · exact isTold_of_cause rfl
    · rename_i pairs h
      split at h
      · cases h
        exact isTold_of_cause rfl
      · cases h

/-- **A project file is told of just when it is a text that can be read and its directories can be looked for.** -/
theorem isTold_read_iff {yaml : Yaml.Reader} {files : FileTree} {path : Path} {bytes : List UInt8}
    (h : files.look path = .ok (some (.file bytes))) :
    IsTold (read yaml files path) ↔ Config.IsTextWith yaml HasPlaces bytes := by
  unfold read
  rw [h]
  simp only
  cases hvalue : Config.valueOf yaml bytes with
  | error f =>
    obtain ⟨hnot, hother⟩ := Config.not_isTextWith_of_valueOf_eq_error hvalue
    exact iff_of_false (not_isTold hother) hnot
  | ok value? =>
    rw [Config.isTextWith_of_valueOf_eq_ok hvalue]
    cases value? with
    | none       => exact iff_of_true (isTold_of_cause rfl) fun _ h => by cases h
    | some value => exact (isTold_ofValue_iff ..).trans (by simp)

end Settings
end ReactSite
