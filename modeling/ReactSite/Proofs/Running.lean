/-!
# Running — how an action with a state and an error runs

An action ends with a result or an error, and with the state it leaves.  A sequence goes on from where the first action
came out well (`run_bind`), and a handler goes on from where it did not (`run_tryCatch`).
-/
namespace ReactSite

section

variable {ε α β : Type}

theorem isOk_iff {r : Except ε α} : r.isOk = true ↔ ∃ x, r = .ok x := by
  cases r <;> simp [Except.isOk, Except.toBool]

theorem toOption_eq_some {r : Except ε α} {x : α} : r.toOption = some x ↔ r = .ok x := by
  cases r <;> simp [Except.toOption]

theorem bind_eq_error {x : Except ε α} {f : α → Except ε β} {e : ε} :
    (x >>= f) = .error e ↔ x = .error e ∨ ∃ a, x = .ok a ∧ f a = .error e := by
  cases x <;> simp [bind, Except.bind]

theorem bind_eq_ok {x : Except ε α} {f : α → Except ε β} {r : β} : x >>= f = .ok r ↔ ∃ a, x = .ok a ∧ f a = .ok r := by
  cases x <;> simp [bind, Except.bind]

end

section

variable {ε σ α β : Type} (s : σ)

theorem run_bind (a : ExceptT ε (StateM σ) α) (f : α → ExceptT ε (StateM σ) β) :
    (a >>= f).run.run s = match a.run.run s with
      | (.ok x, s')    => (f x).run.run s'
      | (.error e, s') => (.error e, s') := by
  show (ExceptT.bindCont f (a.run.run s).1).run (a.run.run s).2 = _
  rcases a.run.run s with ⟨_ | x, s'⟩ <;> rfl

theorem run_tryCatch (a : ExceptT ε (StateM σ) α) (f : ε → ExceptT ε (StateM σ) α) :
    (tryCatch a f).run.run s = match a.run.run s with
      | (.ok x, s')    => (.ok x, s')
      | (.error e, s') => (f e).run.run s' := by
  show (ExceptT.tryCatch a f) s = _
  rcases ha : a.run.run s with ⟨e | x, s'⟩
  · have ha' : a s = (.error e, s') := ha
    simp only [ExceptT.tryCatch, ExceptT.mk, bind, StateT.bind, ha']
    rfl
  · have ha' : a s = (.ok x, s') := ha
    simp only [ExceptT.tryCatch, ExceptT.mk, bind, StateT.bind, ha']
    rfl

@[simp] theorem run_get : (get : ExceptT ε (StateM σ) σ).run.run s = (.ok s, s) := rfl

@[simp] theorem run_modify (f : σ → σ) : (modify f : ExceptT ε (StateM σ) PUnit).run.run s = (.ok ⟨⟩, f s) := rfl

end

section

variable {ε σ α β : Type} {a : ExceptT ε (StateM σ) α} {f : α → ExceptT ε (StateM σ) β} {s s' : σ}

theorem run_bind_eq_ok {r : β} :
    (a >>= f).run.run s = (.ok r, s') ↔ ∃ x v, a.run.run s = (.ok x, v) ∧ (f x).run.run v = (.ok r, s') := by
  rw [run_bind]
  rcases a.run.run s with ⟨e | x, v⟩
  · constructor
    · intro h
      cases h
    · rintro ⟨x, v', hx, -⟩
      cases hx
  · constructor
    · intro h
      exact ⟨x, v, rfl, h⟩
    · rintro ⟨x', v', hx, h⟩
      cases hx
      exact h

end
end ReactSite
