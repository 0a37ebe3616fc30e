import Mathlib.Data.List.Induction
import Mathlib.Data.List.Nodup
import ReactSite.Page.Edit
/-!
# Names — the names of an attribute list stand once

Attributes written one after the other never repeat a name, so the attributes of a tag after the common pass, and after
its own handler, have distinct names.  A list whose names are distinct is written back as it is (`ofList_eq_self`), and
so is one that the tree can store (`storedAttributes_eq_self`).
-/
namespace ReactSite

/-- **One more item of a list counts among its distinct items when it stands there for the first time.** -/
theorem eraseDups_concat (l : List String) (s : String) :
    (l ++ [s]).eraseDups = if s ∈ l then l.eraseDups else l.eraseDups ++ [s] := by
  rw [List.eraseDups_append]
  split
  · rename_i h
    simp [List.removeAll, h]
  · rename_i h
    have hleft : [s].removeAll l = [s] := by simp [List.removeAll, h]
    rw [hleft, List.eraseDups_cons]
    rfl

namespace Attributes

def names (attrs : Attributes) : List String := attrs.map (·.1)

theorem any_name_eq (attrs : Attributes) (name : String) :
    (attrs.any fun a => decide (a.1 = name)) = decide (name ∈ attrs.names) := by
  rw [Bool.eq_iff_iff, List.any_eq_true, decide_eq_true_iff, names, List.mem_map]
  simp only [decide_eq_true_eq]

theorem names_put (attrs : Attributes) (name value : String) :
    (attrs.put name value).names = if name ∈ attrs.names then attrs.names else attrs.names ++ [name] := by
  rw [put, any_name_eq]
  by_cases h : name ∈ attrs.names
  · rw [if_pos (decide_eq_true h), if_pos h, names, names, List.map_map]
    refine List.map_congr_left fun a _ => ?_
    by_cases ha : a.1 = name <;> simp [ha]
  · rw [if_neg (by simpa using h), if_neg h]
    simp [names]

theorem put_of_notMem {attrs : Attributes} {name : String} (value : String) (h : name ∉ attrs.names) :
    attrs.put name value = attrs ++ [(name, value)] := by
  rw [put, if_neg]
  rw [List.any_eq_true]
  rintro ⟨a, ha, hn⟩
  exact h (List.mem_map.2 ⟨a, ha, of_decide_eq_true hn⟩)

theorem nodup_names_put {attrs : Attributes} (name value : String) (h : attrs.names.Nodup) :
    (attrs.put name value).names.Nodup := by
  rw [names_put]
  split
  · exact h
  · rename_i hn
    simpa using List.Nodup.concat hn h

theorem nodup_names_foldl_put : ∀ (l : List (String × String)) (attrs : Attributes), attrs.names.Nodup →
    (l.foldl (fun attrs a => attrs.put a.1 a.2) attrs).names.Nodup
  | [], _, h      => h
  | a :: l, _, h => nodup_names_foldl_put l _ (nodup_names_put a.1 a.2 h)

theorem nodup_names_ofList (l : List (String × String)) : (ofList l).names.Nodup :=
  nodup_names_foldl_put l [] List.nodup_nil

/-- **Attributes written one after the other have their names in order of first occurrence.** -/
theorem names_ofList (l : List (String × String)) : (ofList l).names = (names l).eraseDups := by
  induction l using List.reverseRecOn with
  | nil => rfl
  | append_singleton l a ih =>
    have hput : ofList (l ++ [a]) = (ofList l).put a.1 a.2 := by
      rw [ofList, List.foldl_append]
      rfl
    have hnames : names (l ++ [a]) = names l ++ [a.1] := List.map_append
    rw [hput, names_put, ih, hnames, eraseDups_concat]
    simp only [List.mem_eraseDups]

theorem foldl_put_of_nodup : ∀ (l : List (String × String)) (attrs : Attributes), (names (attrs ++ l)).Nodup →
    l.foldl (fun attrs a => attrs.put a.1 a.2) attrs = attrs ++ l
  | [], attrs, _      => (List.append_nil attrs).symm
  | a :: l, attrs, h => by
    have hn : a.1 ∉ attrs.names := by
      intro ha
      rw [names, List.map_append, List.map_cons] at h
      exact (List.nodup_append.1 h).2.2 a.1 ha a.1 List.mem_cons_self rfl
    rw [List.foldl_cons, put_of_notMem a.2 hn, foldl_put_of_nodup l _ (by rwa [List.append_assoc]), List.append_assoc]
    rfl

theorem ofList_eq_self {l : Attributes} (h : l.names.Nodup) : ofList l = l :=
  foldl_put_of_nodup l [] h

/-! ## Looking up -/

theorem get?_cons (a : String × String) (attrs : Attributes) (k : String) :
    get? (a :: attrs) k = if k = a.1 then some a.2 else get? attrs k := by
  obtain ⟨n, v⟩ := a
  rw [get?, List.lookup_cons]
  by_cases h : k = n
  · simp [h]
  · rw [if_neg h, get?, show (k == n) = false by simpa using h]

theorem get?_eq_none_of_notMem : ∀ {attrs : Attributes} {k : String}, k ∉ attrs.names → attrs.get? k = none
  | [], _, _          => rfl
  | a :: attrs, k, h => by
    rw [names, List.map_cons, List.mem_cons, not_or] at h
    rw [get?_cons, if_neg h.1]
    exact get?_eq_none_of_notMem h.2

theorem mem_of_get? : ∀ {attrs : Attributes} {k v : String}, attrs.get? k = some v → (k, v) ∈ attrs
  | a :: attrs, k, v, h => by
    rw [get?_cons] at h
    split at h
    · rename_i hk
      cases h
      rw [hk]; exact List.mem_cons_self
    · exact List.mem_cons_of_mem _ (mem_of_get? h)

theorem get?_of_mem : ∀ {attrs : Attributes} {k v : String}, attrs.names.Nodup → (k, v) ∈ attrs →
    attrs.get? k = some v
  | a :: attrs, k, v, hn, h => by
    rw [names, List.map_cons, List.nodup_cons] at hn
    rcases List.mem_cons.1 h with rfl | h
    · rw [get?_cons, if_pos rfl]
    · have hk : k ≠ a.1 := fun e => hn.1 (e ▸ List.mem_map.2 ⟨(k, v), h, rfl⟩)
      rw [get?_cons, if_neg hk]
      exact get?_of_mem hn.2 h

theorem get?_map_replaced (name value : String) : ∀ {attrs : Attributes}, name ∈ attrs.names →
    get? (attrs.map fun a => if a.1 = name then (name, value) else a) name = some value
  | a :: attrs, h => by
    rw [List.map_cons, get?_cons]
    by_cases ha : a.1 = name
    · simp [ha]
    · rw [names, List.map_cons, List.mem_cons] at h
      rw [if_neg ha, if_neg (Ne.symm ha)]
      exact get?_map_replaced name value (h.resolve_left (Ne.symm ha))

/-- **What was written is found.** -/
theorem get?_put (attrs : Attributes) (name value : String) : (attrs.put name value).get? name = some value := by
  by_cases h : name ∈ attrs.names
  · rw [put, if_pos]
    · exact get?_map_replaced name value h
    · obtain ⟨a, ha, hn⟩ := List.mem_map.1 h
      exact List.any_eq_true.2 ⟨a, ha, decide_eq_true hn⟩
  · have hnone := get?_eq_none_of_notMem h
    rw [get?] at hnone
    rw [put_of_notMem value h, get?, List.lookup_append, hnone]
    simp

theorem get?_map_of_ne {name k : String} (value : String) (hne : k ≠ name) : ∀ (attrs : Attributes),
    get? (attrs.map fun a => if a.1 = name then (name, value) else a) k = attrs.get? k
  | []         => rfl
  | a :: attrs => by
    rw [List.map_cons, get?_cons, get?_cons, get?_map_of_ne value hne attrs]
    by_cases ha : a.1 = name
    · rw [if_pos ha, if_neg hne, if_neg (ha ▸ hne)]
    · rw [if_neg ha]

theorem get?_append (attrs attrs' : Attributes) (k : String) :
    get? (attrs ++ attrs') k = (attrs.get? k).or (attrs'.get? k) :=
  List.lookup_append

theorem get?_put_of_ne {name k : String} (hne : k ≠ name) (attrs : Attributes) (value : String) :
    (attrs.put name value).get? k = attrs.get? k := by
  unfold put
  split
  · exact get?_map_of_ne value hne attrs
  · have hnone : get? [(name, value)] k = none := by rw [get?_cons, if_neg hne]; rfl
    rw [get?_append, hnone, Option.or_none]

theorem get?_put_eq (attrs : Attributes) (name value k : String) :
    (attrs.put name value).get? k = if k = name then some value else attrs.get? k := by
  split
  · rename_i hk
    rw [hk, get?_put]
  · rename_i hk
    rw [get?_put_of_ne hk]

theorem get?_foldl_put (k : String) : ∀ (l : List (String × String)) (attrs : Attributes),
    (l.foldl (fun attrs a => attrs.put a.1 a.2) attrs).get? k = (get? l.reverse k).or (attrs.get? k)
  | [], _        => rfl
  | a :: l, attrs => by
    have hone : get? [a] k = if k = a.1 then some a.2 else none := get?_cons a [] k
    rw [List.foldl_cons, get?_foldl_put k l, get?_put_eq, List.reverse_cons, get?_append, hone, Option.or_assoc]
    by_cases hk : k = a.1
    · rw [if_pos hk, if_pos hk, Option.some_or]
    · rw [if_neg hk, if_neg hk, Option.none_or]

/-- **Among attributes written one after the other, the last one counts.** -/
theorem get?_ofList (k : String) (l : List (String × String)) : (ofList l).get? k = get? l.reverse k := by
  rw [ofList, get?_foldl_put]
  exact Option.or_none

end Attributes

namespace Page

/-- An attribute that is stored under its own name with its own value. -/
def isAccepted (a : String × String) : Bool := storedName? a.1 = some a.1 && Element.isStorable a.2

theorem storedAttributes_eq_ofList {attrs : Attributes} (h : ∀ a ∈ attrs, isAccepted a = true) :
    storedAttributes attrs = Attributes.ofList attrs := by
  rw [storedAttributes]
  congr 1
  conv => rhs; rw [← List.filterMap_some (l := attrs)]
  refine List.filterMap_congr fun a ha => ?_
  have hacc := h a ha
  rw [isAccepted, Bool.and_eq_true, decide_eq_true_iff] at hacc
  simp only [hacc.1, hacc.2, if_true]

/-- **Accepted attributes with distinct names are stored as they are.** -/
theorem storedAttributes_eq_self {attrs : Attributes} (hn : attrs.names.Nodup)
    (h : ∀ a ∈ attrs, isAccepted a = true) : storedAttributes attrs = attrs := by
  rw [storedAttributes_eq_ofList h, Attributes.ofList_eq_self hn]

/-- **What is stored under a name** is what the attributes have there, when no other name is stored as it. -/
theorem get?_storedAttributes {attrs : Attributes} {name v : String} (hn : attrs.names.Nodup)
    (hname : storedName? name = some name) (honly : ∀ a ∈ attrs, storedName? a.1 = some name → a.1 = name) :
    (storedAttributes attrs).get? name = some v ↔ attrs.get? name = some v ∧ Element.isStorable v = true := by
  -- whatever is stored under the name comes from the one attribute that has it
  have horigin : ∀ u, (storedAttributes attrs).get? name = some u → attrs.get? name = some u ∧ Element.isStorable u = true := by
    intro u hu
    rw [storedAttributes, Attributes.get?_ofList] at hu
    obtain ⟨a, ha, hstored⟩ := List.mem_filterMap.1 (List.mem_reverse.1 (Attributes.mem_of_get? hu))
    split at hstored
    · rename_i key hkey
      split at hstored
      · rename_i hvalue
        obtain ⟨rfl, rfl⟩ := Prod.mk.inj (Option.some.inj hstored)
        have heq := honly a ha hkey
        exact ⟨Attributes.get?_of_mem hn (heq ▸ ha), hvalue⟩
      · cases hstored
    · cases hstored
  refine ⟨horigin v, fun ⟨hget, hvalue⟩ => ?_⟩
  cases hsome : (storedAttributes attrs).get? name with
  | some u => rw [← hget, (horigin u hsome).1]
  | none =>
    rw [storedAttributes, Attributes.get?_ofList, Attributes.get?, List.lookup_eq_none_iff] at hsome
    have hother := hsome (name, v) (List.mem_reverse.2 (List.mem_filterMap.2
      ⟨(name, v), Attributes.mem_of_get? hget, by simp only [hname, hvalue, if_true]⟩))
    simp at hother

end Page
end ReactSite
