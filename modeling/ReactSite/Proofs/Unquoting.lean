import ReactSite.Page.Content
import ReactSite.Proofs.Binding
import ReactSite.Proofs.Replacement
/-!
# Unquoting — what taking the quotes off placeholders does to a text

The placeholders of a page lose their quotes one identifier after the other.  A placeholder in quotes holds no mark of
the markup, so the marks of a page split the work (`unquoteAll_append_cons`); between two of them either nothing is in
quotes and nothing changes (`unquoteAll_eq_self_iff`), or all of it is a placeholder in quotes (`unquoteAll_quoted`).
-/
namespace ReactSite
namespace Page

open Naming (IsIdentifier)

def braced (v : String) : List Char := (Resolution.placeholder v).toList

def quoted (v : String) : List Char := '"' :: braced v ++ ['"']

def unquoteAll (vs : List String) (s : List Char) : List Char :=
  vs.foldl (fun s v => Text.replaceAll (quoted v) (braced v) s) s

theorem toList_foldl_unquote (vs : List String) : ∀ s : String, (vs.foldl unquote s).toList = unquoteAll vs s.toList := by
  induction vs with
  | nil => exact fun _ => rfl
  | cons v vs ih =>
    intro s
    rw [List.foldl_cons, ih, unquote, String.toList_ofList]
    rfl

theorem braced_eq (v : String) : braced v = '\x7b' :: (v.toList ++ ['\x7d']) := by
  have hopen : "\x7b".toList = ['\x7b'] := by decide
  have hclose : "\x7d".toList = ['\x7d'] := by decide
  rw [braced, Resolution.placeholder, String.toList_append, String.toList_append, hopen, hclose]
  rfl

theorem length_braced_lt (v : String) : (braced v).length < (quoted v).length := by
  rw [quoted, List.length_append, List.length_cons, List.length_singleton]
  omega

theorem quoted_ne_nil (v : String) : quoted v ≠ [] := by
  unfold quoted
  simp

/-- A character that stands in no placeholder. -/
def isMark (c : Char) : Bool := !Naming.isWordChar c && !(['_', '\x7b', '\x7d', '"'].contains c)

theorem notMem_braced {v : String} (hv : IsIdentifier v) {c : Char} (hw : Naming.isWordChar c = false) (hu : c ≠ '_')
    (hopen : c ≠ '\x7b') (hclose : c ≠ '\x7d') : c ∉ braced v := by
  have hname := hv.notMem hw hu
  rw [braced_eq]
  simp [hname, hopen, hclose]

theorem quote_notMem_braced {v : String} (hv : IsIdentifier v) : '"' ∉ braced v :=
  notMem_braced hv (by decide) (by decide) (by decide) (by decide)

theorem mark_notMem_quoted {v : String} (hv : IsIdentifier v) {c : Char} (hc : isMark c = true) : c ∉ quoted v := by
  simp only [isMark, Bool.and_eq_true, Bool.not_eq_true', List.contains_eq_mem, decide_eq_false_iff_not, List.mem_cons,
    List.not_mem_nil, or_false, not_or] at hc
  obtain ⟨hw, hu, hopen, hclose, hquote⟩ := hc
  have hbraced := notMem_braced hv hw hu hopen hclose
  unfold quoted
  simp [hbraced, hquote]

/-- Between quotes stands the placeholder itself, or it does not stand there. -/
theorem quoted_infix_iff {v : String} (hv : IsIdentifier v) {x : List Char} (hx : '"' ∉ x) :
    quoted v <:+: '"' :: x ++ ['"'] ↔ x = braced v := by
  constructor
  · rintro ⟨s, t, h⟩
    cases s with
    | nil =>
      have hl : braced v ++ '"' :: t = x ++ '"' :: [] := by simpa [quoted] using h
      exact (Text.split_at_first (quote_notMem_braced hv) hx hl).1.symm
    | cons c s =>
      -- two quotes in the placeholder, one left
      have hcount := congrArg (List.count '"') (List.cons.inj h).2
      simp [quoted, List.count_eq_zero.2 hx] at hcount
      omega
  · rintro rfl
    exact List.infix_refl _

theorem quoted_infix_quoted {v w : String} (hv : IsIdentifier v) (hw : IsIdentifier w) (h : quoted v <:+: quoted w) :
    v = w := by
  have hb := (quoted_infix_iff hv (quote_notMem_braced hw)).1 h
  rw [braced_eq, braced_eq, List.cons.injEq, List.append_cancel_right_eq] at hb
  exact (String.toList_inj.1 hb.2).symm

section

variable {vs : List String}

theorem unquoteAll_cons (v : String) (s : List Char) :
    unquoteAll (v :: vs) s = unquoteAll vs (Text.replaceAll (quoted v) (braced v) s) := rfl

/-- **A mark splits the work.** -/
theorem unquoteAll_append_cons (hvs : ∀ v ∈ vs, IsIdentifier v) {c : Char} (hc : isMark c = true) (a b : List Char) :
    unquoteAll vs (a ++ c :: b) = unquoteAll vs a ++ c :: unquoteAll vs b := by
  induction vs generalizing a b with
  | nil => rfl
  | cons v vs ih =>
    have hv := mark_notMem_quoted (hvs v List.mem_cons_self) hc
    rw [unquoteAll_cons, unquoteAll_cons, unquoteAll_cons, Text.replaceAll_append_cons (quoted_ne_nil v) _ hv]
    exact ih (fun w hw => hvs w (List.mem_cons_of_mem _ hw)) _ _

theorem length_unquoteAll_le (s : List Char) : (unquoteAll vs s).length ≤ s.length := by
  induction vs generalizing s with
  | nil => exact Nat.le_refl _
  | cons v vs ih => exact (ih _).trans (Text.length_replaceAll_le (length_braced_lt v) s)

/-- **A text stays as it is just when no placeholder stands in quotes in it.** -/
theorem unquoteAll_eq_self_iff {s : List Char} : unquoteAll vs s = s ↔ ∀ v ∈ vs, ¬ quoted v <:+: s := by
  induction vs with
  | nil => simp [unquoteAll]
  | cons v vs ih =>
    rw [unquoteAll_cons, List.forall_mem_cons]
    constructor
    · intro h
      have hv : ¬ quoted v <:+: s := by
        intro hin
        have hlt := Text.length_replaceAll_lt (length_braced_lt v) hin
        have hle : (unquoteAll vs _).length ≤ _ := length_unquoteAll_le (Text.replaceAll (quoted v) (braced v) s)
        rw [h] at hle
        omega
      rw [Text.replaceAll_eq_self hv] at h
      exact ⟨hv, ih.1 h⟩
    · rintro ⟨hv, hrest⟩
      rw [Text.replaceAll_eq_self hv]
      exact ih.2 hrest

/-- **A placeholder in quotes loses them**, and only its own identifier matters for that. -/
theorem unquoteAll_quoted (hvs : ∀ v ∈ vs, IsIdentifier v) {v : String} (hv : v ∈ vs) :
    unquoteAll vs (quoted v) = braced v := by
  induction vs with
  | nil => exact absurd hv List.not_mem_nil
  | cons w vs ih =>
    have hrest : ∀ w ∈ vs, IsIdentifier w := fun w hw => hvs w (List.mem_cons_of_mem _ hw)
    rw [unquoteAll_cons]
    by_cases e : w = v
    · subst e
      rw [Text.replaceAll_self (quoted_ne_nil w), unquoteAll_eq_self_iff]
      intro u _ hin
      have hquote : '"' ∈ quoted u := by
        unfold quoted
        simp
      exact quote_notMem_braced (hvs w List.mem_cons_self) (hin.subset hquote)
    · have hne : ¬ quoted w <:+: quoted v := fun hin =>
        e (quoted_infix_quoted (hvs w List.mem_cons_self) (hvs v hv) hin)
      have hin : v ∈ vs := (List.mem_cons.1 hv).resolve_left fun h => e h.symm
      rw [Text.replaceAll_eq_self hne]
      exact ih hrest hin

end

end Page
end ReactSite
