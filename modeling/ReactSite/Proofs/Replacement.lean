import Mathlib.Data.List.Infix
import ReactSite.Text.Replace
/-!
# Replacement — what replacing a text by a shorter one changes

A character that the replaced text does not hold splits the work in two (`replaceAll_append_cons`).  A text stays the same
when there is nothing to replace in it (`replaceAll_eq_self`), and when the new text is shorter every replacement makes it
shorter (`length_replaceAll_lt`).
-/
namespace ReactSite
namespace Text

theorem split_at_first {c : Char} : ∀ {a b x y : List Char}, c ∉ a → c ∉ b → a ++ c :: x = b ++ c :: y → a = b ∧ x = y
  | [], [], _, _, _, _, h       => ⟨rfl, (List.cons.inj h).2⟩
  | [], d :: b, _, _, _, hb, h  => absurd ((List.cons.inj h).1 ▸ List.mem_cons_self) hb
  | d :: a, [], _, _, ha, _, h  => absurd ((List.cons.inj h).1 ▸ List.mem_cons_self) ha
  | d :: a, e :: b, _, _, ha, hb, h => by
    obtain ⟨hab, hxy⟩ := split_at_first (fun hc => ha (List.mem_cons_of_mem _ hc))
      (fun hc => hb (List.mem_cons_of_mem _ hc)) (List.cons.inj h).2
    exact ⟨by rw [(List.cons.inj h).1, hab], hxy⟩

theorem replaceFrom_cons (old new : List Char) (c : Char) (s : List Char) : replaceFrom old new 0 (c :: s) =
    if old.isPrefixOf (c :: s) then new ++ replaceFrom old new (old.length - 1) s else c :: replaceFrom old new 0 s := rfl

theorem replaceFrom_succ_cons (old new : List Char) (skip : Nat) (c : Char) (s : List Char) :
    replaceFrom old new (skip + 1) (c :: s) = replaceFrom old new skip s := rfl

theorem prefix_append_cons_iff {old : List Char} {c : Char} (hc : c ∉ old) {a b : List Char} :
    old <+: a ++ c :: b ↔ old <+: a := by
  constructor
  · rintro ⟨r, hr⟩
    rcases List.append_eq_append_iff.1 hr with ⟨t, ht, -⟩ | ⟨t, ht, hrest⟩
    · exact ⟨t, ht.symm⟩
    · cases t with
      | nil => rw [ht, List.append_nil]
      | cons d ds =>
        rw [List.cons_append] at hrest
        have hd : c = d := (List.cons.inj hrest).1
        exact absurd (by rw [ht, hd]; simp) hc
  · intro h
    exact h.trans (List.prefix_append _ _)

/-- An occurrence lies on one side of a character that it does not hold. -/
theorem infix_append_cons_iff {old : List Char} {c : Char} (hc : c ∉ old) {a b : List Char} :
    old <:+: a ++ c :: b ↔ old <:+: a ∨ old <:+: b := by
  constructor
  · intro h
    induction a with
    | nil =>
      rcases List.infix_cons_iff.1 h with hpre | hin
      · have hnil : old <+: [] ++ c :: b := hpre
        exact .inl ((prefix_append_cons_iff hc).1 hnil).isInfix
      · exact .inr hin
    | cons x a ih =>
      rcases List.infix_cons_iff.1 h with hpre | hin
      · have hcons : old <+: (x :: a) ++ c :: b := hpre
        exact .inl ((prefix_append_cons_iff hc).1 hcons).isInfix
      · exact (ih hin).imp_left List.infix_cons
  · rintro (h | h)
    · exact h.trans (List.prefix_append _ _).isInfix
    · exact (List.infix_cons h).trans (List.suffix_append _ _).isInfix

theorem isPrefixOf_append_cons {old : List Char} {c : Char} (hc : c ∉ old) (a b : List Char) :
    old.isPrefixOf (a ++ c :: b) = old.isPrefixOf a := by
  rw [Bool.eq_iff_iff, List.isPrefixOf_iff_prefix, List.isPrefixOf_iff_prefix, prefix_append_cons_iff hc]

theorem replaceFrom_append_cons {old new : List Char} (hold : old ≠ []) {c : Char} (hc : c ∉ old) (b : List Char) :
    ∀ (skip : Nat) (a : List Char), skip ≤ a.length →
      replaceFrom old new skip (a ++ c :: b) = replaceFrom old new skip a ++ c :: replaceFrom old new 0 b
  | 0, [], _ => by
    have hnot : ¬ old.isPrefixOf (c :: b) = true := by
      have h := isPrefixOf_append_cons hc [] b
      rw [List.nil_append] at h
      rw [h, List.isPrefixOf_iff_prefix, List.prefix_nil]
      exact hold
    rw [List.nil_append, replaceFrom_cons, if_neg hnot]
    rfl
  | 0, x :: a, _ => by
    have hprefix := isPrefixOf_append_cons hc (x :: a) b
    rw [List.cons_append] at hprefix
    rw [List.cons_append, replaceFrom_cons, replaceFrom_cons, hprefix]
    by_cases h : old.isPrefixOf (x :: a) = true
    · have hlen := (List.isPrefixOf_iff_prefix.1 h).length_le
      rw [List.length_cons] at hlen
      rw [if_pos h, if_pos h, replaceFrom_append_cons hold hc b _ a (by omega), List.append_assoc]
    · rw [if_neg h, if_neg h, replaceFrom_append_cons hold hc b 0 a (Nat.zero_le _), List.cons_append]
  | skip + 1, x :: a, h => by
    rw [List.cons_append, replaceFrom_succ_cons, replaceFrom_succ_cons]
    exact replaceFrom_append_cons hold hc b skip a (Nat.le_of_succ_le_succ h)

/-- **A character that the replaced text does not hold splits the work.** -/
theorem replaceAll_append_cons {old : List Char} (hold : old ≠ []) (new : List Char) {c : Char} (hc : c ∉ old)
    (a b : List Char) : replaceAll old new (a ++ c :: b) = replaceAll old new a ++ c :: replaceAll old new b :=
  replaceFrom_append_cons hold hc b 0 a (Nat.zero_le _)

theorem replaceAll_eq_self {old new : List Char} : ∀ {s : List Char}, ¬ old <:+: s → replaceAll old new s = s
  | [], _ => rfl
  | c :: s, h => by
    have hnot : ¬ old.isPrefixOf (c :: s) = true := fun hp => h (List.isPrefixOf_iff_prefix.1 hp).isInfix
    have hrest : ¬ old <:+: s := fun hs => h (List.infix_cons hs)
    rw [replaceAll, replaceFrom_cons, if_neg hnot]
    exact congrArg (c :: ·) (replaceAll_eq_self hrest)

theorem length_replaceFrom_le {old new : List Char} (h : new.length < old.length) : ∀ (skip : Nat) (s : List Char),
    skip ≤ s.length → (replaceFrom old new skip s).length + skip ≤ s.length
  | skip, [], hs => by
    unfold replaceFrom
    simpa using hs
  | 0, c :: s, _ => by
    rw [replaceFrom_cons]
    by_cases hp : old.isPrefixOf (c :: s) = true
    · have hlen := (List.isPrefixOf_iff_prefix.1 hp).length_le
      rw [List.length_cons] at hlen
      have ih := length_replaceFrom_le h (old.length - 1) s (by omega)
      rw [if_pos hp, List.length_append, List.length_cons]
      omega
    · have ih := length_replaceFrom_le h 0 s (Nat.zero_le _)
      rw [if_neg hp, List.length_cons, List.length_cons]
      omega
  | skip + 1, c :: s, hs => by
    have ih := length_replaceFrom_le h skip s (Nat.le_of_succ_le_succ hs)
    rw [replaceFrom_succ_cons, List.length_cons]
    omega

theorem length_replaceAll_le {old new : List Char} (h : new.length < old.length) (s : List Char) :
    (replaceAll old new s).length ≤ s.length :=
  length_replaceFrom_le h 0 s (Nat.zero_le _)

theorem length_replaceAll_lt {old new : List Char} (h : new.length < old.length) : ∀ {s : List Char}, old <:+: s →
    (replaceAll old new s).length < s.length
  | [], hs => by
    have := hs.length_le
    rw [List.length_nil] at this
    omega
  | c :: s, hs => by
    rw [replaceAll, replaceFrom_cons]
    by_cases hp : old.isPrefixOf (c :: s) = true
    · have hlen := (List.isPrefixOf_iff_prefix.1 hp).length_le
      rw [List.length_cons] at hlen
      have hrest := length_replaceFrom_le h (old.length - 1) s (by omega)
      rw [if_pos hp, List.length_append, List.length_cons]
      omega
    · rcases List.infix_cons_iff.1 hs with hpre | hin
      · exact absurd (List.isPrefixOf_iff_prefix.2 hpre) hp
      · have ih := length_replaceAll_lt h hin
        rw [if_neg hp, List.length_cons, List.length_cons]
        exact Nat.succ_lt_succ ih

theorem replaceFrom_length (old new q : List Char) : ∀ s : List Char,
    replaceFrom old new s.length (s ++ q) = replaceAll old new q
  | []     => rfl
  | _ :: s => replaceFrom_length old new q s

/-- **The first occurrence is replaced**, and the work goes on behind it. -/
theorem replaceAll_first {old : List Char} (hold : old ≠ []) (new : List Char) (q : List Char) : ∀ {p : List Char},
    ¬ old <:+: p ++ old.dropLast → replaceAll old new (p ++ (old ++ q)) = p ++ (new ++ replaceAll old new q)
  | [], _ => by
    cases old with
    | nil => exact absurd rfl hold
    | cons c s =>
      have hp : (c :: s).isPrefixOf (c :: (s ++ q)) = true :=
        List.isPrefixOf_iff_prefix.2 (List.prefix_append (c :: s) q)
      rw [List.nil_append, List.cons_append, replaceAll, replaceFrom_cons, if_pos hp, List.length_cons,
        Nat.add_sub_cancel, replaceFrom_length]
      rfl
  | c :: p, h => by
    have hnot : ¬ old.isPrefixOf (c :: (p ++ (old ++ q))) = true := by
      intro hp
      -- it would end before the occurrence does
      have hlast : c :: p ++ old.dropLast <+: c :: (p ++ (old ++ q)) :=
        List.prefix_append_right_inj (c :: p) |>.2 ((List.dropLast_prefix old).trans (List.prefix_append old q))
      have hlen : old.length ≤ (c :: p ++ old.dropLast).length := by
        rw [List.length_append, List.length_cons, List.length_dropLast]
        omega
      exact h (List.prefix_of_prefix_length_le (List.isPrefixOf_iff_prefix.1 hp) hlast hlen).isInfix
    have hrest : ¬ old <:+: p ++ old.dropLast := fun hin => h (List.infix_cons hin)
    rw [List.cons_append, replaceAll, replaceFrom_cons, if_neg hnot]
    exact congrArg (c :: ·) (replaceAll_first hold new q hrest)

theorem replaceAll_self {old : List Char} (hold : old ≠ []) (new : List Char) : replaceAll old new old = new := by
  have hnot : ¬ old <:+: [] ++ old.dropLast := by
    intro h
    have hlen := h.length_le
    have hpos := List.length_pos_iff.2 hold
    rw [List.nil_append, List.length_dropLast] at hlen
    omega
  have hfirst := replaceAll_first hold new [] hnot
  rw [List.append_nil, List.nil_append, List.nil_append] at hfirst
  rw [hfirst]
  exact List.append_nil new

end Text
end ReactSite
