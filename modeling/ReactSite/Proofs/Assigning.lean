import ReactSite.Proofs.Importing
/-!
# Assigning — which identifier each specifier gets

A name that is taken gives way to the same name with the number 2, then 3, and so on.  Requested names may look like
numbered ones, so any of these can be taken too; but no two numbers make one name, and among one more of them than there
are taken names one is free.  So the search ends (`finds_iff`), at the least number that is free (`isFresh_freshName`).
Over calls in any order the identifiers stay distinct and belong to one specifier each (`assigned_identifyAll`).
-/
namespace ReactSite
namespace Imports

/-! ## The search for a free name -/

/-- **The search for a free name**, at a candidate and the next number: a free candidate ends it, a taken one gives way
to the name with that number. -/
inductive Finds (taken : List String) (name : String) : String → Nat → String → Prop
  | free {candidate : String} {k : Nat} (h : candidate ∉ taken) : Finds taken name candidate k candidate
  | next {candidate found : String} {k : Nat} (h : candidate ∈ taken)
      (hnext : Finds taken name (suffixed name k) (k + 1) found) : Finds taken name candidate k found

/-- **The name with the least number from 2 on that is free**, or the name itself when it is free. -/
inductive IsFresh (taken : List String) (name : String) : String → Prop
  | plain (h : name ∉ taken) : IsFresh taken name name
  | numbered {k : Nat} (h : name ∈ taken) (hk : 2 ≤ k) (hfree : suffixed name k ∉ taken)
      (hleast : ∀ j, 2 ≤ j → j < k → suffixed name j ∈ taken) : IsFresh taken name (suffixed name k)

variable {taken : List String} {name : String}

theorem isFresh_freshName (taken : List String) (name : String) : IsFresh taken name (freshName taken name) := by
  by_cases h : name ∈ taken
  · rw [freshName, if_neg (by simpa using h)]
    cases hfind : ((List.range' 2 (taken.length + 1)).map (suffixed name)).find? (!taken.contains ·) with
    | none =>
      obtain ⟨s, hs, hfree⟩ := exists_free taken name
      exact absurd (List.find?_eq_none.1 hfind s hs) (by simpa using hfree)
    | some found =>
      rw [List.find?_map, Option.map_eq_some_iff] at hfind
      obtain ⟨k, hk, rfl⟩ := hfind
      rw [List.find?_range'_eq_some] at hk
      obtain ⟨hfree, hmem, hleast⟩ := hk
      refine .numbered h (List.mem_range'_1.1 hmem).1 (by simpa using hfree) fun j hj hlt => ?_
      simpa using hleast j hj hlt
  · rw [freshName, if_pos (by simpa using h)]
    exact .plain h

theorem Finds.functional {candidate found found' : String} {k : Nat} (h : Finds taken name candidate k found)
    (h' : Finds taken name candidate k found') : found = found' := by
  induction h with
  | free hfree =>
    cases h' with
    | free => rfl
    | next htaken => exact absurd htaken hfree
  | next htaken _ ih =>
    cases h' with
    | free hfree => exact absurd htaken hfree
    | next _ hnext => exact ih hnext

/-- From a number below the least free one on, the search goes up to that one. -/
theorem finds_suffixed {k : Nat} (hfree : suffixed name k ∉ taken)
    (hleast : ∀ j, 2 ≤ j → j < k → suffixed name j ∈ taken) : ∀ (n j : Nat), 2 ≤ j → j + n = k →
      Finds taken name (suffixed name j) (j + 1) (suffixed name k)
  | 0, _, _, rfl      => .free hfree
  | n + 1, j, hj, hjk => .next (hleast j hj (by omega)) (finds_suffixed hfree hleast n (j + 1) (by omega) (by omega))

theorem IsFresh.finds {found : String} (h : IsFresh taken name found) : Finds taken name name 2 found := by
  cases h with
  | plain h => exact .free h
  | @numbered k h hk hfree hleast =>
    exact .next h (finds_suffixed hfree hleast (k - 2) 2 (Nat.le_refl 2) (by omega))

/-- **The search ends, with the one name that is bound.** -/
theorem finds_iff (taken : List String) (name found : String) :
    Finds taken name name 2 found ↔ found = freshName taken name := by
  constructor
  · intro h
    exact h.functional (isFresh_freshName taken name).finds
  · rintro rfl
    exact (isFresh_freshName taken name).finds

/-! ## Calls in a row -/

/-- **Calls one after the other**, each with a specifier and a name: the identifiers they return, and the imports then. -/
def identifyAll (i : Imports) : List (String × String) → List String × Imports
  | []         => ([], i)
  | c :: calls =>
    let rest := identifyAll (i.identify c.1 c.2).2 calls
    ((i.identify c.1 c.2).1 :: rest.1, rest.2)

/-- **What calls leave behind**: each call's specifier is bound to what it returned, and nothing else is bound. -/
structure Answers (i : Imports) (calls : List (String × String)) (returned : List String) : Prop where
  identifiers_eq : i.identifiers = i.bindings.map (·.2)
  nodup_identifiers : i.identifiers.Nodup
  nodup_specifiers : (Attributes.names i.bindings).Nodup
  bound_iff : ∀ s, s ∈ Attributes.names i.bindings ↔ s ∈ calls.map (·.1)
  bound : List.Forall₂ (fun c v => (c.1, v) ∈ i.bindings) calls returned
  firsts : i.identifiers = returned.eraseDups

theorem Answers.empty : Answers {} [] [] where
  identifiers_eq := rfl
  nodup_identifiers := List.nodup_nil
  nodup_specifiers := List.nodup_nil
  bound_iff _ := Iff.rfl
  bound := .nil
  firsts := rfl

variable {i : Imports} {calls : List (String × String)} {returned : List String}

theorem Answers.mem_identifiers (h : Answers i calls returned) {s v : String} (hv : (s, v) ∈ i.bindings) :
    v ∈ i.identifiers := by
  rw [h.identifiers_eq]
  exact List.mem_map.2 ⟨(s, v), hv, rfl⟩

/-- **One more call.** -/
theorem Answers.identify (h : Answers i calls returned) (s name : String) :
    Answers (i.identify s name).2 (calls ++ [(s, name)]) (returned ++ [(i.identify s name).1]) := by
  have hspecifiers : ∀ s', s' ∈ (calls ++ [(s, name)]).map (·.1) ↔ s' ∈ Attributes.names i.bindings ∨ s' = s := by
    intro s'
    rw [List.map_append, List.mem_append, ← h.bound_iff, List.map_singleton, List.mem_singleton]
  rcases identify_cases i s name with ⟨v, hv, e⟩ | ⟨hs, e⟩ <;> rw [e]
  · have hmem : s ∈ Attributes.names i.bindings := List.mem_map.2 ⟨(s, v), hv, rfl⟩
    have hreturned : v ∈ returned := by
      rw [← List.mem_eraseDups, ← h.firsts]
      exact h.mem_identifiers hv
    refine { h with bound_iff := fun s' => ?_, bound := List.rel_append h.bound (.cons hv .nil), firsts := ?_ }
    · rw [hspecifiers]
      exact ⟨.inl, fun hs' => hs'.elim id fun e => e ▸ hmem⟩
    · rw [eraseDups_concat, if_pos hreturned]
      exact h.firsts
  · have hfree := freshName_notMem i.identifiers name
    have hreturned : freshName i.identifiers name ∉ returned := by
      rwa [← List.mem_eraseDups, ← h.firsts]
    have hwider : ∀ b ∈ i.bindings, b ∈ i.bindings ++ [(s, freshName i.identifiers name)] :=
      fun b hb => List.mem_append_left _ hb
    refine {
      identifiers_eq := ?_
      nodup_identifiers := ?_
      nodup_specifiers := ?_
      bound_iff := fun s' => ?_
      bound := List.rel_append (h.bound.imp fun c v hb => hwider _ hb) (.cons (List.mem_append_right _ (List.mem_singleton_self _)) .nil)
      firsts := ?_ }
    · simp [h.identifiers_eq]
    · simpa using h.nodup_identifiers.concat hfree
    · simpa [Attributes.names] using h.nodup_specifiers.concat hs
    · rw [hspecifiers]
      simp [Attributes.names]
    · rw [eraseDups_concat, if_neg hreturned, ← h.firsts]

theorem Answers.identifyAll : ∀ (more : List (String × String)) {i : Imports} {calls : List (String × String)}
    {returned : List String}, Answers i calls returned →
      Answers (i.identifyAll more).2 (calls ++ more) (returned ++ (i.identifyAll more).1)
  | [], i, calls, returned, h => by
    simpa only [Imports.identifyAll, List.append_nil] using h
  | c :: more, i, calls, returned, h => by
    have hrest := Answers.identifyAll more (h.identify c.1 c.2)
    simpa only [Imports.identifyAll, List.append_assoc, List.singleton_append] using hrest

theorem Answers.same_iff (h : Answers i calls returned) {c d : (String × String) × String}
    (hc : c ∈ calls.zip returned) (hd : d ∈ calls.zip returned) : c.2 = d.2 ↔ c.1.1 = d.1.1 := by
  have hbound : ∀ e ∈ calls.zip returned, (e.1.1, e.2) ∈ i.bindings := by
    intro e he
    exact (List.forall₂_iff_zip.1 h.bound).2 he
  have hnodup : (i.bindings.map (·.2)).Nodup := h.identifiers_eq ▸ h.nodup_identifiers
  constructor
  · intro heq
    have hpair := List.inj_on_of_nodup_map hnodup (hbound c hc) (hbound d hd) heq
    exact congrArg (·.1) hpair
  · intro heq
    have hpair := List.inj_on_of_nodup_map h.nodup_specifiers (hbound c hc) (hbound d hd) heq
    exact congrArg (·.2) hpair

/-- **What holds of calls made one after the other**: what they return, and what one more call does. -/
structure Assigned (calls : List (String × String)) (returned : List String) (i : Imports) : Prop where
  length_eq : returned.length = calls.length
  nodup : i.identifiers.Nodup
  /-- In the order in which they were returned first. -/
  identifiers_eq : i.identifiers = returned.eraseDups
  same_iff : ∀ c ∈ calls.zip returned, ∀ d ∈ calls.zip returned, c.2 = d.2 ↔ c.1.1 = d.1.1
  /-- The search of the next call ends with what the call returns, and with nothing else. -/
  ends : ∀ s name, s ∉ calls.map (·.1) → ∀ found,
    Finds i.identifiers name name 2 found ↔ found = (i.identify s name).1
  isFresh : ∀ s name, s ∉ calls.map (·.1) → IsFresh i.identifiers name (i.identify s name).1

/-- **Every call returns, and its identifier is its specifier's alone**, whatever specifiers and names are asked for. -/
theorem assigned_identifyAll (calls : List (String × String)) :
    Assigned calls (identifyAll {} calls).1 (identifyAll {} calls).2 := by
  have h : Answers (identifyAll {} calls).2 calls (identifyAll {} calls).1 := by
    simpa only [List.nil_append] using Answers.empty.identifyAll calls
  -- a specifier that no call had is not bound, so the call for it searches
  have hfresh : ∀ s name, s ∉ calls.map (·.1) →
      ((identifyAll {} calls).2.identify s name).1 = freshName (identifyAll {} calls).2.identifiers name := by
    intro s name hs
    rcases identify_cases (identifyAll {} calls).2 s name with ⟨v, hv, -⟩ | ⟨-, e⟩
    · exact absurd ((h.bound_iff s).1 (List.mem_map.2 ⟨(s, v), hv, rfl⟩)) hs
    · rw [e]
  exact {
    length_eq := h.bound.length_eq.symm
    nodup := h.nodup_identifiers
    identifiers_eq := h.firsts
    same_iff := fun c hc d hd => h.same_iff hc hd
    ends := fun s name hs found => by rw [hfresh s name hs, finds_iff]
    isFresh := fun s name hs => by
      rw [hfresh s name hs]
      exact isFresh_freshName _ _ }

/-- A requested name may look like a numbered one. -/
example : (identifyAll {} [("x", "a"), ("y", "a"), ("z", "a_2"), ("x", "b")]).1 = ["a", "a_2", "a_2_2", "a"] := by decide

end Imports
end ReactSite
