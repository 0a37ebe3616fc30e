import ReactSite.Mapping
import ReactSite.Proofs.Binding
import ReactSite.Proofs.Replacement
/-!
# Statements — the import statements of a page, told apart by their text

A page imports the navigation component, an asset under an identifier, or a file for its effect.  All three are kept as
text in one list, which holds no text twice; that loses nothing, for different statements have different texts
(`text_injective`).
-/
namespace ReactSite

open Naming (IsIdentifier)

/-- **An import statement of a page.** -/
inductive Statement where
  | navigation
  /-- An asset, imported under an identifier. -/
  | value (identifier specifier : String)
  /-- A file imported for its effect. -/
  | effect (specifier : String)
deriving DecidableEq, Repr

namespace Statement

def text : Statement → String
  | navigation                 => Mapping.navigationImport
  | value identifier specifier => valueImport identifier specifier
  | effect specifier           => ReactSite.effectImport specifier

def IsProper : Statement → Prop
  | value identifier _ => IsIdentifier identifier
  | _                  => True

def fromMark : List Char := ['f', 'r', 'o', 'm', ' ', '"']

def endMark : List Char := ['"', ';']

/-- What a text has after the word `import`. -/
def body : Statement → List Char
  | navigation => '\x7b' :: (" Link \x7d from \"react-router-dom\";").toList
  | value v s  => v.toList ++ ' ' :: (fromMark ++ (s.toList ++ endMark))
  | effect s   => '"' :: (s.toList ++ endMark)

theorem toList_text (t : Statement) : t.text.toList = "import ".toList ++ t.body := by
  have hfrom : " from \"".toList = ' ' :: fromMark := by decide
  have hend : "\";".toList = endMark := by decide
  cases t with
  | navigation => decide
  | value v s =>
    rw [text, body, valueImport, String.toList_append, String.toList_append, String.toList_append, String.toList_append,
      hfrom, hend, List.append_assoc, List.append_assoc, List.append_assoc, List.cons_append]
  | effect s =>
    have hquote : "import \"".toList = "import ".toList ++ ['"'] := by decide
    rw [text, body, effectImport, String.toList_append, String.toList_append, hquote, hend, List.append_assoc,
      List.append_assoc, List.singleton_append]

theorem body_eq_of_text_eq {t u : Statement} (h : t.text = u.text) : t.body = u.body := by
  have hl := congrArg String.toList h
  rwa [toList_text, toList_text, List.append_cancel_left_eq] at hl

theorem value_injective {v v' s s' : String} (hv : IsIdentifier v) (hv' : IsIdentifier v')
    (h : (value v s).text = (value v' s').text) : v = v' ∧ s = s' := by
  have hb := body_eq_of_text_eq h
  have hblank : ' ' ∉ v.toList := hv.notMem (by decide) (by decide)
  have hblank' : ' ' ∉ v'.toList := hv'.notMem (by decide) (by decide)
  obtain ⟨hv, hs⟩ := Text.split_at_first hblank hblank' hb
  rw [List.append_cancel_left_eq, List.append_cancel_right_eq] at hs
  exact ⟨String.toList_inj.1 hv, String.toList_inj.1 hs⟩

theorem head_body_value {v : String} (hv : IsIdentifier v) (s : String) {c : Char} {rest : List Char}
    (h : (value v s).body = c :: rest) : c ∈ v.toList := by
  rw [body] at h
  cases hl : v.toList with
  | nil => exact absurd hl hv.ne_nil
  | cons d ds =>
    rw [hl, List.cons_append, List.cons.injEq] at h
    rw [h.1]; exact List.mem_cons_self

theorem value_ne_navigation {v s : String} (hv : IsIdentifier v) : (value v s).text ≠ navigation.text := by
  intro h
  exact hv.notMem (by decide) (by decide) (head_body_value hv s (body_eq_of_text_eq h))

theorem value_ne_effect {v s s' : String} (hv : IsIdentifier v) : (value v s).text ≠ (effect s').text := by
  intro h
  exact hv.notMem (by decide) (by decide) (head_body_value hv s (body_eq_of_text_eq h))

theorem effect_ne_navigation (s : String) : (effect s).text ≠ navigation.text := by
  intro h
  have hb := body_eq_of_text_eq h
  simp only [body] at hb
  exact absurd (List.cons.inj hb).1 (by decide)

/-- **Different statements have different texts.** -/
theorem text_injective {t u : Statement} (ht : t.IsProper) (hu : u.IsProper) (h : t.text = u.text) : t = u := by
  cases t with
  | navigation =>
    cases u with
    | navigation => rfl
    | value v s => exact absurd h.symm (value_ne_navigation hu)
    | effect s => exact absurd h.symm (effect_ne_navigation s)
  | value v s =>
    cases u with
    | navigation => exact absurd h (value_ne_navigation ht)
    | value v' s' =>
      obtain ⟨rfl, rfl⟩ := value_injective ht hu h
      rfl
    | effect s' => exact absurd h (value_ne_effect ht)
  | effect s =>
    cases u with
    | navigation => exact absurd h (effect_ne_navigation s)
    | value v s' => exact absurd h.symm (value_ne_effect hu)
    | effect s' =>
      have hb := body_eq_of_text_eq h
      simp only [body, List.cons.injEq, List.append_cancel_right_eq, true_and] at hb
      rw [String.toList_inj.1 hb]

end Statement
end ReactSite
