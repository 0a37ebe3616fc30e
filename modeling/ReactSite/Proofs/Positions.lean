import ReactSite.Proofs.Storing
/-!
# Positions — where two lists of tags and results part

A tag and its result belong together when their names agree, in whatever case.  The check goes with the edits, so it is
asked what an edit can do to it: nothing, for an edit that fails fails with a text that cannot be stored (`edit_error`).
What carrying out the results reports is therefore the first position at which the lists part, whatever the edits before
it did to the tree and whatever its searches found (`carryOut_error_iff`).
-/
namespace ReactSite
namespace Page

/-- **The lists part** at a position: one of them has ended there, or the names differ in more than their case. -/
def PartsAt (tags : List Tag) (results : List MappedTag) (i : Nat) : Prop :=
  (tags[i]?.map fun r => Text.lower r.name) ≠ (results[i]?.map fun m => Text.lower m.name)

instance (tags : List Tag) (results : List MappedTag) (i : Nat) : Decidable (PartsAt tags results i) :=
  inferInstanceAs (Decidable (_ ≠ _))

/-- The failure that names a position, and the tags that stand there. -/
def driftAt (file : Option String) (position : Nat) (r : Option Tag) (m : Option MappedTag) : Failure :=
  .of (.drift position ((r.map (·.name)).getD endMark) ((m.map (·.name)).getD endMark)) file

variable {file : Option String} {tags : List Tag} {results : List MappedTag} {failure : Failure}

/-! ## What an edit can fail with -/

namespace Draft

theorem checkJoined_error {α : Type} {d : Element.Detached α} (h : checkJoined d = .error failure) :
    failure = .forbiddenText := by
  unfold checkJoined at h
  split at h
  · exact (Except.error.inj h).symm
  · cases h

theorem dropDetached_error (n : Nat) : ∀ {out : List Element}, dropDetached n out = .error failure →
    failure = .forbiddenText
  | [], h       => by cases h
  | e :: out, h => by
    unfold dropDetached at h
    split at h
    · obtain h | ⟨_, -, h⟩ := bind_eq_error.1 h
      · exact checkJoined_error h
      · cases h
    · obtain h | ⟨_, -, h⟩ := bind_eq_error.1 h
      · exact dropDetached_error n h
      · cases h

theorem drop_error {w : Draft} {n : Nat} (h : w.drop n = .error failure) : failure = .forbiddenText := by
  unfold drop at h
  split at h
  · obtain h | ⟨_, -, h⟩ := bind_eq_error.1 h
    · exact checkJoined_error h
    · cases h
  · obtain h | ⟨_, -, h⟩ := bind_eq_error.1 h
    · exact dropDetached_error n h
    · cases h

/-- **An edit fails only with a text that cannot be stored.** -/
theorem edit_error {w : Draft} {r : Tag} {m : MappedTag} (h : w.edit r m = .error failure) :
    failure = .forbiddenText := by
  unfold edit at h
  split at h
  · cases h
  · exact drop_error h
  · cases h

end Draft

/-! ## The first parting -/

@[simp] theorem partsAt_cons_succ (r : Tag) (m : MappedTag) (i : Nat) :
    PartsAt (r :: tags) (m :: results) (i + 1) ↔ PartsAt tags results i := by
  rw [PartsAt, PartsAt, List.getElem?_cons_succ, List.getElem?_cons_succ]

@[simp] theorem partsAt_cons_zero (r : Tag) (m : MappedTag) :
    PartsAt (r :: tags) (m :: results) 0 ↔ Text.lower r.name ≠ Text.lower m.name := by
  simp [PartsAt]

theorem exists_partsAt : (∃ i, PartsAt tags results i) ↔ tags.length ≠ results.length ∨
    ∃ (i : Nat) (r : Tag) (m : MappedTag), tags[i]? = some r ∧ results[i]? = some m ∧
      Text.lower r.name ≠ Text.lower m.name := by
  constructor
  · rintro ⟨i, h⟩
    rcases hr : tags[i]? with _ | r <;> rcases hm : results[i]? with _ | m
    · simp [PartsAt, hr, hm] at h
    · have hended := List.getElem?_eq_none_iff.1 hr
      have hthere := (List.getElem?_eq_some_iff.1 hm).1
      exact .inl (by omega)
    · have hthere := (List.getElem?_eq_some_iff.1 hr).1
      have hended := List.getElem?_eq_none_iff.1 hm
      exact .inl (by omega)
    · exact .inr ⟨i, r, m, hr, hm, by simpa [PartsAt, hr, hm] using h⟩
  · rintro (h | ⟨i, r, m, hr, hm, h⟩)
    · -- the shorter list has ended where the longer one goes on
      refine ⟨min tags.length results.length, ?_⟩
      rcases Nat.lt_or_gt_of_ne h with h | h
      · simp [PartsAt, Nat.min_eq_left (Nat.le_of_lt h), h]
      · simp [PartsAt, Nat.min_eq_right (Nat.le_of_lt h), h]
    · exact ⟨i, by simpa [PartsAt, hr, hm] using h⟩

/-- **A result is carried out** only where the names agree. -/
theorem carryOutFrom_cons_ok {r : Tag} {m : MappedTag} {index : Nat} {w v : Draft}
    (h : carryOutFrom file index (r :: tags) (m :: results) w = .ok v) :
    Text.lower r.name = Text.lower m.name ∧ ∃ u, carryOutFrom file (index + 1) tags results u = .ok v := by
  rw [carryOutFrom] at h
  split at h
  · cases h
  · rename_i hname
    obtain ⟨u, -, h⟩ := bind_eq_ok.1 h
    exact ⟨not_not.1 hname, u, h⟩

/-- **Results that are carried out to the end** part nowhere from their tags. -/
theorem not_partsAt_of_ok : ∀ {tags : List Tag} {results : List MappedTag} {index : Nat} {w v : Draft},
    carryOutFrom file index tags results w = .ok v → ∀ i, ¬ PartsAt tags results i
  | [], [], _, _, _, _, i         => by simp [PartsAt]
  | r :: rs, [], _, _, _, h, _    => by cases h
  | [], m :: ms, _, _, _, h, _    => by cases h
  | r :: rs, m :: ms, _, _, _, h, i => by
    obtain ⟨hname, u, hrest⟩ := carryOutFrom_cons_ok h
    cases i with
    | zero => rw [partsAt_cons_zero, hname, not_not]
    | succ i => rw [partsAt_cons_succ]; exact not_partsAt_of_ok hrest i

/-- **Where the check stops**: with a text that cannot be stored, or at the first position at which the lists part. -/
theorem carryOutFrom_error : ∀ {tags : List Tag} {results : List MappedTag} {index : Nat} {w : Draft},
    carryOutFrom file index tags results w = .error failure → failure = .forbiddenText ∨
      ∃ i, PartsAt tags results i ∧ (∀ j < i, ¬ PartsAt tags results j) ∧
        failure = driftAt file (index + i) tags[i]? results[i]?
  | [], [], _, _, h        => by cases h
  | r :: rs, [], _, _, h   => by
    cases h
    exact .inr ⟨0, by simp [PartsAt], by simp, rfl⟩
  | [], m :: ms, _, _, h   => by
    cases h
    exact .inr ⟨0, by simp [PartsAt], by simp, rfl⟩
  | r :: rs, m :: ms, index, w, h => by
    rw [carryOutFrom] at h
    split at h
    · rename_i hname
      cases h
      exact .inr ⟨0, (partsAt_cons_zero r m).2 hname, by simp, rfl⟩
    · rename_i hname
      obtain h | ⟨u, -, h⟩ := bind_eq_error.1 h
      · exact .inl (Draft.edit_error h)
      obtain h | ⟨i, hi, hleast, hf⟩ := carryOutFrom_error h
      · exact .inl h
      refine .inr ⟨i + 1, (partsAt_cons_succ r m i).2 hi, fun j hj => ?_, ?_⟩
      · cases j with
        | zero => rwa [partsAt_cons_zero]
        | succ j => rw [partsAt_cons_succ]; exact hleast j (Nat.lt_of_succ_lt_succ hj)
      · rw [hf, List.getElem?_cons_succ, List.getElem?_cons_succ, Nat.add_right_comm, Nat.add_assoc]

/-! ## What is reported -/

/-- Texts that can be stored are never refused, whatever the lists. -/
theorem carryOutFrom_ne_forbidden : ∀ (tags : List Tag) (results : List MappedTag) (index : Nat) {w : Draft},
    w.textsStorable = true → carryOutFrom file index tags results w ≠ .error .forbiddenText
  | [], [], _, _, _                   => by simp [carryOutFrom]
  | r :: rs, [], _, _, _              => by simp [carryOutFrom, Failure.of]
  | [], m :: ms, _, _, _              => by simp [carryOutFrom, Failure.of]
  | r :: rs, m :: ms, index, w, h => by
    rw [carryOutFrom]
    split
    · simp [Failure.of]
    · obtain ⟨u, hu, hs⟩ := Draft.edit_eq_ok r m h
      rw [hu]
      exact carryOutFrom_ne_forbidden rs ms (index + 1) hs

theorem not_partsAt_ofPage (site : Surroundings) (table : RenameTable) (tags : List Tag) (i : Nat) :
    ¬ PartsAt tags (Mapping.ofPage site table tags).results i := by
  have hnames : (Mapping.ofPage site table tags).results.map (·.name) = tags.map (·.name) :=
    Mapping.names_ofTags site table tags {}
  have hat := congrArg (fun names => names[i]?.map Text.lower) hnames
  simp only [List.getElem?_map, Option.map_map] at hat
  rw [PartsAt, not_not]
  exact hat.symm

/-- Lists that part before a place part there already. -/
theorem PartsAt.of_take {k i : Nat} (h : PartsAt (tags.take k) (results.take k) i) : PartsAt tags results i := by
  unfold PartsAt at h ⊢
  rw [List.getElem?_take, List.getElem?_take] at h
  split at h
  · exact h
  · exact absurd rfl h

/-- **The check of positions is exact.**  Where no text is refused, carrying out results fails with the one failure that
names the first position at which tags and results part, together with what stands there in each list (or that the list
has ended).  It fails just when the lists have different lengths or differ somewhere in a name, read in lower case.  The
results of the tags' own mapping are carried out to the end, whatever the page's surroundings and the names that change. -/
theorem carryOut_error_iff (file : Option String) (root : Element) (tags : List Tag) (results : List MappedTag)
    (haccepted : carryOut file root tags results ≠ .error .forbiddenText) :
    (∀ failure, carryOut file root tags results = .error failure ↔
      ∃ i, PartsAt tags results i ∧ (∀ j < i, ¬ PartsAt tags results j) ∧
        failure = driftAt file i tags[i]? results[i]?) ∧
    ((∃ failure, carryOut file root tags results = .error failure) ↔
      tags.length ≠ results.length ∨
        ∃ (i : Nat) (r : Tag) (m : MappedTag), tags[i]? = some r ∧ results[i]? = some m ∧
          Text.lower r.name ≠ Text.lower m.name) ∧
    (∀ site table, results = (Mapping.ofPage site table tags).results →
      ∃ draft, carryOut file root tags results = .ok draft) := by
  have hfirst : ∀ failure, carryOut file root tags results = .error failure →
      ∃ i, PartsAt tags results i ∧ (∀ j < i, ¬ PartsAt tags results j) ∧
        failure = driftAt file i tags[i]? results[i]? := by
    intro failure h
    obtain rfl | ⟨i, hi, hleast, hf⟩ := carryOutFrom_error h
    · exact absurd h haccepted
    · exact ⟨i, hi, hleast, by rw [hf, Nat.zero_add]⟩
  have hfails : ∀ i, PartsAt tags results i → ∃ failure, carryOut file root tags results = .error failure := by
    intro i hi
    cases hrun : carryOut file root tags results with
    | error failure => exact ⟨failure, rfl⟩
    | ok draft => exact absurd hi (not_partsAt_of_ok hrun i)
  refine ⟨fun failure => ⟨hfirst failure, ?_⟩, ?_, ?_⟩
  · -- the failure at hand names a first position as well, and there is only one
    rintro ⟨i, hi, hleast, rfl⟩
    obtain ⟨failure, h⟩ := hfails i hi
    obtain ⟨k, hk, hleast', rfl⟩ := hfirst failure h
    have heq : k = i := by
      rcases Nat.lt_trichotomy k i with hlt | heq | hgt
      · exact absurd hk (hleast k hlt)
      · exact heq
      · exact absurd hi (hleast' i hgt)
    rwa [heq] at h
  · rw [← exists_partsAt]
    constructor
    · rintro ⟨failure, h⟩
      obtain ⟨i, hi, -⟩ := hfirst failure h
      exact ⟨i, hi⟩
    · rintro ⟨i, hi⟩
      exact hfails i hi
  · rintro site table rfl
    cases hrun : carryOut file root tags (Mapping.ofPage site table tags).results with
    | ok draft => exact ⟨draft, rfl⟩
    | error failure =>
      obtain ⟨i, hi, -⟩ := hfirst failure hrun
      exact absurd hi (not_partsAt_ofPage site table tags i)

/-- A page that lost its last result: the check names that position, and the tag there. -/
theorem carryOut_error_of_missing_result :
    carryOut (some "a.html") (.mk 0 "html" [] "" [.mk 1 "p" [] "x" [] ""] "") [⟨"html", [], some 0⟩, ⟨"p", [], none⟩]
      [⟨"HTML", some []⟩] = .error (driftAt (some "a.html") 1 (some ⟨"p", [], none⟩) none) :=
  ((carryOut_error_iff _ _ _ _ (carryOutFrom_ne_forbidden _ _ 0 (textsStorable_start (by decide)))).1 _).2
    ⟨1, by decide, by decide, rfl⟩

end Page
end ReactSite
