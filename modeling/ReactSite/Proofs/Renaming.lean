import ReactSite.Config.Packaged
import ReactSite.Proofs.Names
/-!
# Renaming — which attributes a tag keeps, and under which names

The pass that every tag's attributes go through drops styles and event handlers, whatever the case of their names, and
writes the rest one after the other under new names.  Where two of these are one name, its place is that of the first and
its value that of the last; where they are distinct nothing is lost.  The packaged table renames to names with a capital
letter, so among names in lower case the new ones are always distinct (`renamed_injective`).
-/
namespace ReactSite
namespace Attributes

/-- **The attributes that are kept**, each under its new name, before any of them meets another. -/
def kept (table : RenameTable) (attrs : Attributes) : Attributes :=
  (attrs.filter fun a => Text.lower a.1 ≠ "style" ∧ ¬ ['o', 'n'] <+: (Text.lower a.1).toList).map fun a =>
    ((table.lookup (Text.lower a.1)).getD a.1, a.2)

theorem isDropped_eq (name : String) : (!isDropped name) =
    decide (Text.lower name ≠ "style" ∧ ¬ ['o', 'n'] <+: (Text.lower name).toList) := by
  rw [isDropped, Bool.eq_iff_iff, decide_eq_true_iff, Bool.not_eq_true', Bool.or_eq_false_iff, decide_eq_false_iff_not,
    ← List.isPrefixOf_iff_prefix, Bool.not_eq_true]

/-- **The pass writes what is kept, one attribute after the other.** -/
theorem passed_eq (table : RenameTable) (attrs : Attributes) : passed table attrs = ofList (kept table attrs) := by
  rw [passed, kept]
  simp only [isDropped_eq, renamed]

/-! ## The packaged table -/

theorem lower_ne_of_packaged : ∀ p ∈ Packaged.renameTable, Text.lower p.2 ≠ p.2 := by decide +kernel

theorem nodup_packaged : (Packaged.renameTable.map (·.2)).Nodup := by decide +kernel

theorem passes_of_packaged : ∀ p ∈ Packaged.renameTable, p.2 ≠ "style" ∧ ¬ ['o', 'n'] <+: p.2.toList := by
  decide +kernel

/-- **The packaged table keeps names in lower case apart**: a new name of the table is none of theirs, and stands for one
of them only. -/
theorem renamed_injective {m n : String} (hm : Text.lower m = m) (hn : Text.lower n = n)
    (h : (Packaged.renameTable.lookup m).getD m = (Packaged.renameTable.lookup n).getD n) : m = n := by
  have hlower : ∀ {k v : String}, Packaged.renameTable.lookup k = some v → Text.lower v ≠ v := fun hv =>
    lower_ne_of_packaged _ (mem_of_get? hv)
  cases hv : Packaged.renameTable.lookup m with
  | none =>
    cases hw : Packaged.renameTable.lookup n with
    | none => rwa [hv, hw] at h
    | some w =>
      rw [hv, hw, Option.getD_none, Option.getD_some] at h
      exact absurd (h ▸ hm) (hlower hw)
  | some v =>
    cases hw : Packaged.renameTable.lookup n with
    | none =>
      rw [hv, hw, Option.getD_none, Option.getD_some] at h
      exact absurd (h ▸ hn) (hlower hv)
    | some w =>
      rw [hv, hw, Option.getD_some, Option.getD_some] at h
      have hpair := List.inj_on_of_nodup_map nodup_packaged (mem_of_get? hv) (mem_of_get? hw) h
      exact congrArg (·.1) hpair

section

variable {attrs : Attributes} (hlower : ∀ a ∈ attrs, Text.lower a.1 = a.1)
include hlower

theorem nodup_kept_packaged (hnames : attrs.names.Nodup) : (kept Packaged.renameTable attrs).names.Nodup := by
  rw [kept, names, List.map_map]
  refine List.Nodup.map_on ?_ (((List.Nodup.of_map _ hnames)).filter _)
  intro a ha b hb h
  have ha := (List.mem_filter.1 ha).1
  have hb := (List.mem_filter.1 hb).1
  simp only [Function.comp_apply, hlower a ha, hlower b hb] at h
  exact List.inj_on_of_nodup_map hnames ha hb (renamed_injective (hlower a ha) (hlower b hb) h)

theorem passes_of_mem_kept_packaged : ∀ n ∈ (kept Packaged.renameTable attrs).names,
    n ≠ "style" ∧ ¬ ['o', 'n'] <+: n.toList := by
  intro n hn
  obtain ⟨b, hb, rfl⟩ := List.mem_map.1 hn
  obtain ⟨a, ha, rfl⟩ := List.mem_map.1 hb
  obtain ⟨ha, hpass⟩ := List.mem_filter.1 ha
  rw [decide_eq_true_iff, hlower a ha] at hpass
  simp only [hlower a ha]
  cases hv : Packaged.renameTable.lookup a.1 with
  | none => exact hpass
  | some v => exact passes_of_packaged _ (mem_of_get? hv)

end

/-! ## The pass -/

/-- **What the pass makes of attributes**: the names of what is kept, each at its first place, and its last value. -/
structure IsPass (table : RenameTable) (attrs out : Attributes) : Prop where
  nodup : out.names.Nodup
  names_eq : out.names = (kept table attrs).names.eraseDups
  value_eq : ∀ name, out.get? name = get? (kept table attrs).reverse name
  lossless : (kept table attrs).names.Nodup → out = kept table attrs

/-- **The pass keeps what it says, in order**, and with the packaged table no attribute in lower case is lost to another. -/
theorem isPass_passed (attrs : Attributes) :
    (∀ table, IsPass table attrs (passed table attrs)) ∧
      (attrs.names.Nodup → (∀ a ∈ attrs, Text.lower a.1 = a.1) →
        (kept Packaged.renameTable attrs).names.Nodup ∧
        (∀ n ∈ (kept Packaged.renameTable attrs).names, n ≠ "style" ∧ ¬ ['o', 'n'] <+: n.toList) ∧
        passed Packaged.renameTable attrs = kept Packaged.renameTable attrs) := by
  constructor
  · intro table
    rw [passed_eq]
    exact {
      nodup := nodup_names_ofList _
      names_eq := names_ofList _
      value_eq := fun name => get?_ofList name _
      lossless := ofList_eq_self }
  · intro hnames hlower
    have hdistinct := nodup_kept_packaged hlower hnames
    exact ⟨hdistinct, passes_of_mem_kept_packaged hlower, (passed_eq _ attrs).trans (ofList_eq_self hdistinct)⟩

theorem isPass_passed_label :
    IsPass [("a", "b"), ("c", "b")] [("C", "1"), ("b", "2"), ("a", "3"), ("d", "4")] [("b", "3"), ("d", "4")] ∧
      passed Packaged.renameTable [("class", "x"), ("onclick", "go()"), ("id", "n"), ("style", "top:0"), ("for", "y")] =
        [("className", "x"), ("id", "n"), ("htmlFor", "y")] := by
  constructor
  · have hpass := (isPass_passed [("C", "1"), ("b", "2"), ("a", "3"), ("d", "4")]).1 [("a", "b"), ("c", "b")]
    have hout : passed [("a", "b"), ("c", "b")] [("C", "1"), ("b", "2"), ("a", "3"), ("d", "4")] =
        [("b", "3"), ("d", "4")] := by decide +kernel
    rwa [hout] at hpass
  · have hkept := ((isPass_passed
      [("class", "x"), ("onclick", "go()"), ("id", "n"), ("style", "top:0"), ("for", "y")]).2 (by decide)
      (by decide +kernel)).2.2
    rw [hkept]
    decide +kernel

end Attributes
end ReactSite
