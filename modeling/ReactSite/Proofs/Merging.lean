import Mathlib.Data.List.Basic
import ReactSite.Yaml.Value
/-!
# Merging — one configured mapping over another

Values count as one key when they are keys and the same one (`sameKey_iff`).  A mapping is
known by what it has under each key (`valueAt`), and merging one over another gives every key the last value the upper
one has for it, or else the value it had (`valueAt_mergePairs`).  Values can be compared, so what a file says can be
computed (`decEq`).
-/
namespace ReactSite
namespace Yaml
namespace Value

/-! ## Equal values -/

mutual

/-- The values are the same, by what they are made of. -/
def same : Value → Value → Bool
  | null, null           => true
  | bool a, bool b       => a == b
  | int a, int b         => a == b
  | text a, text b       => a == b
  | list a, list b       => sameItems a b
  | mapping a, mapping b => samePairs a b
  | other ⟨type, shown, words, empty, key, held⟩, other ⟨type', shown', words', empty', key', held'⟩ =>
    decide ((type, shown, words, empty, key) = (type', shown', words', empty', key')) && sameHeld held held'
  | _, _                 => false

def sameHeld : Option (List Value) → Option (List Value) → Bool
  | none, none     => true
  | some a, some b => sameItems a b
  | _, _           => false

def sameItems : List Value → List Value → Bool
  | [], []           => true
  | a :: as, b :: bs => same a b && sameItems as bs
  | _, _             => false

def samePairs : List (Value × Value) → List (Value × Value) → Bool
  | [], []                     => true
  | (k, a) :: as, (l, b) :: bs => same k l && same a b && samePairs as bs
  | _, _                       => false

end

mutual

theorem same_iff : ∀ a b : Value, same a b = true ↔ a = b
  | null, b      => by cases b <;> simp [same]
  | bool _, b    => by cases b <;> simp [same]
  | int _, b     => by cases b <;> simp [same]
  | text _, b    => by cases b <;> simp [same]
  | list a, b    => by
    cases b with
    | list b => rw [same, sameItems_iff, list.injEq]
    | _      => simp [same]
  | mapping a, b => by
    cases b with
    | mapping b => rw [same, samePairs_iff, mapping.injEq]
    | _         => simp [same]
  | other ⟨_, _, _, _, _, a⟩, b => by
    cases b with
    | other b =>
      obtain ⟨_, _, _, _, _, b⟩ := b
      rw [same, Bool.and_eq_true, decide_eq_true_iff, sameHeld_iff a b, other.injEq, Other.mk.injEq]
      simp only [Prod.mk.injEq, and_assoc]
    | _       => simp [same]

theorem sameHeld_iff : ∀ a b : Option (List Value), sameHeld a b = true ↔ a = b
  | none, b   => by cases b <;> simp [sameHeld]
  | some a, b => by
    cases b with
    | none   => simp [sameHeld]
    | some b => rw [sameHeld, sameItems_iff a b, Option.some.injEq]

theorem sameItems_iff : ∀ as bs : List Value, sameItems as bs = true ↔ as = bs
  | [], bs      => by cases bs <;> simp [sameItems]
  | a :: as, bs => by
    cases bs with
    | nil       => simp [sameItems]
    | cons b bs => rw [sameItems, Bool.and_eq_true, same_iff a b, sameItems_iff as bs, List.cons.injEq]

theorem samePairs_iff : ∀ as bs : List (Value × Value), samePairs as bs = true ↔ as = bs
  | [], bs           => by cases bs <;> simp [samePairs]
  | (k, a) :: as, bs => by
    cases bs with
    | nil       => simp [samePairs]
    | cons b bs =>
      obtain ⟨l, b⟩ := b
      rw [samePairs, Bool.and_eq_true, Bool.and_eq_true, same_iff k l, same_iff a b, samePairs_iff as bs, List.cons.injEq,
        Prod.mk.injEq]

end

instance decEq : DecidableEq Value := fun a b => decidable_of_iff _ (same_iff a b)

/-! ## Keys -/

theorem sameKey_iff (a b : Value) : sameKey a b = true ↔ a.isKey = true ∧ a.key? = b.key? := by
  unfold sameKey
  rw [Bool.and_eq_true, beq_iff_eq]

/-- **Two keys that are one key are the same as the same keys.** -/
theorem sameKey_congr {a b : Value} (h : sameKey a b = true) (c : Value) : sameKey a c = sameKey b c := by
  obtain ⟨-, hkey⟩ := (sameKey_iff a b).1 h
  unfold sameKey isKey
  rw [hkey]

theorem sameKey_comm (a b : Value) : sameKey a b = sameKey b a := by
  rw [Bool.eq_iff_iff, sameKey_iff, sameKey_iff]
  constructor
  · rintro ⟨hkey, heq⟩
    exact ⟨by unfold isKey at hkey ⊢; rwa [← heq], heq.symm⟩
  · rintro ⟨hkey, heq⟩
    exact ⟨by unfold isKey at hkey ⊢; rwa [← heq], heq.symm⟩

theorem sameKey_self {a : Value} (h : a.isKey = true) : sameKey a a = true := (sameKey_iff a a).2 ⟨h, rfl⟩

/-! ## Looking up -/

/-- **The value that pairs have under a key**, the first one. -/
def valueAt (pairs : List (Value × Value)) (key : Value) : Option Value :=
  (pairs.find? fun p => sameKey key p.1).map (·.2)

theorem valueAt_congr {a b : Value} (h : sameKey a b = true) (pairs : List (Value × Value)) :
    valueAt pairs a = valueAt pairs b := by
  unfold valueAt
  simp only [sameKey_congr h]

theorem valueAt_append (pairs more : List (Value × Value)) (key : Value) :
    valueAt (pairs ++ more) key = (valueAt pairs key).or (valueAt more key) := by
  rw [valueAt, List.find?_append, Option.map_or]
  rfl

theorem valueAt_singleton (key value k : Value) : valueAt [(key, value)] k = if sameKey k key then some value else none := by
  unfold valueAt
  by_cases h : sameKey k key = true <;> simp [h]

theorem valueAt_eq_none {pairs : List (Value × Value)} {key : Value} (h : ∀ p ∈ pairs, sameKey key p.1 = false) :
    valueAt pairs key = none := by
  unfold valueAt
  rw [Option.map_eq_none_iff, List.find?_eq_none]
  intro p hp
  rw [h p hp]
  exact Bool.false_ne_true

/-- **What was put under a key is found there**, and nothing else has changed. -/
theorem valueAt_putPair (pairs : List (Value × Value)) (key value k : Value) :
    valueAt (putPair pairs key value) k = if sameKey k key then some value else valueAt pairs k := by
  unfold putPair
  split
  · rename_i hany
    have hkeys : (fun p : Value × Value => sameKey k p.1) ∘ (fun p => if sameKey key p.1 then (p.1, value) else p) =
        fun p => sameKey k p.1 := by
      funext p
      simp only [Function.comp_apply]
      split <;> rfl
    rw [valueAt, List.find?_map, hkeys, Option.map_map]
    split
    · rename_i hk
      obtain ⟨p, hp, hsame⟩ := List.any_eq_true.1 hany
      have hfound : (pairs.find? fun p => sameKey k p.1).isSome := by
        rw [List.find?_isSome]
        exact ⟨p, hp, by rwa [sameKey_congr hk]⟩
      obtain ⟨q, hq⟩ := Option.isSome_iff_exists.1 hfound
      have hkey := List.find?_some hq
      rw [sameKey_congr hk] at hkey
      rw [hq, Option.map_some, Function.comp_apply, if_pos hkey]
    · rename_i hk
      cases hq : pairs.find? fun p => sameKey k p.1 with
      | none => rw [valueAt, hq]; rfl
      | some q =>
        have hkey := List.find?_some hq
        have hother : ¬ sameKey key q.1 = true := by
          rw [sameKey_comm, ← sameKey_congr hkey]
          exact hk
        rw [valueAt, hq, Option.map_some, Option.map_some, Function.comp_apply, if_neg hother]
  · rename_i hany
    rw [valueAt_append, valueAt_singleton]
    split
    · rename_i hk
      rw [valueAt_eq_none, Option.none_or]
      intro p hp
      rw [sameKey_congr hk]
      exact Bool.eq_false_iff.2 fun h => hany (List.any_eq_true.2 ⟨p, hp, h⟩)
    · exact Option.or_none

/-- **A mapping over another**: every key has the last value that the upper one has for it, or else the one it had. -/
theorem valueAt_mergePairs (upper base : List (Value × Value)) (k : Value) :
    valueAt (mergePairs base upper) k = (valueAt upper.reverse k).or (valueAt base k) := by
  induction upper generalizing base with
  | nil => rfl
  | cons p upper ih =>
    have hone : valueAt [p] k = if sameKey k p.1 then some p.2 else none := valueAt_singleton p.1 p.2 k
    have hstep : mergePairs base (p :: upper) = mergePairs (putPair base p.1 p.2) upper := rfl
    rw [hstep, ih, valueAt_putPair, List.reverse_cons, valueAt_append, hone, Option.or_assoc]
    by_cases hk : sameKey k p.1 = true
    · rw [if_pos hk, if_pos hk, Option.some_or]
    · rw [if_neg hk, if_neg hk, Option.none_or]

theorem valueAt_of_not_isKey {k : Value} (h : k.isKey = false) (pairs : List (Value × Value)) : valueAt pairs k = none := by
  refine valueAt_eq_none fun p _ => Bool.eq_false_iff.2 fun hsame => ?_
  rw [((sameKey_iff k p.1).1 hsame).1] at h
  cases h

/-- **Merging changes nothing** when what the upper mapping has last under each of its keys is there already. -/
theorem valueAt_mergePairs_eq_iff (upper base : List (Value × Value)) :
    (∀ k, valueAt (mergePairs base upper) k = valueAt base k) ↔
      ∀ p ∈ upper, valueAt upper.reverse p.1 = valueAt base p.1 := by
  simp only [valueAt_mergePairs]
  constructor
  · intro h p hp
    cases hkey : p.1.isKey with
    | false => rw [valueAt_of_not_isKey hkey, valueAt_of_not_isKey hkey]
    | true =>
      have hfound : (upper.reverse.find? fun q => sameKey p.1 q.1).isSome := by
        rw [List.find?_isSome]
        exact ⟨p, List.mem_reverse.2 hp, sameKey_self hkey⟩
      obtain ⟨q, hq⟩ := Option.isSome_iff_exists.1 hfound
      have hlast : valueAt upper.reverse p.1 = some q.2 := by rw [valueAt, hq, Option.map_some]
      have hsame := h p.1
      rwa [hlast, Option.some_or, ← hlast] at hsame
  · intro h k
    cases hq : upper.reverse.find? fun q => sameKey k q.1 with
    | none => rw [valueAt, hq, Option.map_none, Option.none_or]
    | some q =>
      have hkey := List.find?_some hq
      have hmem := List.mem_reverse.1 (List.mem_of_find?_eq_some hq)
      rw [valueAt_congr hkey, h q hmem, valueAt_congr hkey, Option.or_self]

end Value
end Yaml
end ReactSite
