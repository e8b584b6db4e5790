import RowStream.Stream.Ends

/-!
# Running computations over a state

What `Stateful.runFrom` makes of each way to build a computation. A run answers a result and a
state, and a bind goes on from the state that its first part leaves, so that every later proof can
follow a computation call by call.
-/

namespace RowStream.Stateful

variable {ε ε' σ τ α β : Type}

@[simp] theorem runFrom_pure (a : α) (s : σ) :
    (pure a : Stateful ε σ α).runFrom s = (.ok a, s) := rfl

@[simp] theorem runFrom_throw (e : ε) (s : σ) :
    (throw e : Stateful ε σ α).runFrom s = (.error e, s) := rfl

@[simp] theorem runFrom_get (s : σ) :
    (get : Stateful ε σ σ).runFrom s = (.ok s, s) := rfl

@[simp] theorem runFrom_modify (f : σ → σ) (s : σ) :
    (modify f : Stateful ε σ PUnit).runFrom s = (.ok ⟨⟩, f s) := rfl

/-- The end of a run that puts a result in the place of its state, or fails and keeps it. -/
def replaced (s : σ) : Except ε σ → Except ε Unit × σ
  | .ok s' => (.ok (), s')
  | .error e => (.error e, s)

theorem runFrom_bind (x : Stateful ε σ α) (f : α → Stateful ε σ β) (s : σ) :
    (x >>= f).runFrom s =
      match x.runFrom s with
      | (.ok a, s') => (f a).runFrom s'
      | (.error e, s') => (.error e, s') := by
  rcases h : x.runFrom s with ⟨result, s'⟩
  have hx : x s = (result, s') := h
  change (ExceptT.bindCont f (x s).1) (x s).2 = _
  rw [hx]
  cases result <;> rfl

theorem runFrom_bind_of_ok {x : Stateful ε σ α} {f : α → Stateful ε σ β} {s s' : σ} {a : α}
    (h : x.runFrom s = (.ok a, s')) : (x >>= f).runFrom s = (f a).runFrom s' := by
  rw [runFrom_bind, h]

theorem runFrom_bind_of_error {x : Stateful ε σ α} {f : α → Stateful ε σ β} {s s' : σ} {e : ε}
    (h : x.runFrom s = (.error e, s')) : (x >>= f).runFrom s = (.error e, s') := by
  rw [runFrom_bind, h]

theorem runFrom_bind_ok {x : Stateful ε σ α} {f : α → Stateful ε σ β} {s s' : σ} {b : β}
    (h : (x >>= f).runFrom s = (.ok b, s')) :
    ∃ a s₁, x.runFrom s = (.ok a, s₁) ∧ (f a).runFrom s₁ = (.ok b, s') := by
  rw [runFrom_bind] at h
  rcases hx : x.runFrom s with ⟨e | a, s₁⟩
  · rw [hx] at h
    cases h
  · rw [hx] at h
    exact ⟨a, s₁, rfl, h⟩

theorem runFrom_mapError (f : ε → ε') (x : Stateful ε σ α) (s : σ) :
    (x.mapError f).runFrom s = ((x.runFrom s).1.mapError f, (x.runFrom s).2) := rfl

theorem runFrom_mapError_ok {f : ε → ε'} {x : Stateful ε σ α} {s s' : σ} {a : α} :
    (x.mapError f).runFrom s = (.ok a, s') ↔ x.runFrom s = (.ok a, s') := by
  rw [runFrom_mapError]
  rcases x.runFrom s with ⟨e | b, s₁⟩
  · constructor
    · intro h
      cases h
    · intro h
      cases h
  · constructor
    · intro h
      cases h
      rfl
    · intro h
      cases h
      rfl

theorem runFrom_mapError_error {f : ε → ε'} {x : Stateful ε σ α} {s s' : σ} {e' : ε'} :
    (x.mapError f).runFrom s = (.error e', s') ↔
      ∃ e, x.runFrom s = (.error e, s') ∧ f e = e' := by
  rw [runFrom_mapError]
  rcases x.runFrom s with ⟨e | a, s₁⟩
  · constructor
    · intro h
      cases h
      exact ⟨e, rfl, rfl⟩
    · rintro ⟨e₁, h, rfl⟩
      cases h
      rfl
  · constructor
    · intro h
      cases h
    · rintro ⟨e, h, -⟩
      cases h

theorem runFrom_ofExcept (x : Except ε α) (s : σ) :
    (ofExcept x : Stateful ε σ α).runFrom s = (x, s) := by
  cases x <;> rfl

theorem runFrom_onFirst (x : Stateful ε σ α) (s : σ) (t : τ) :
    (onFirst x).runFrom (s, t) = ((x.runFrom s).1, ((x.runFrom s).2, t)) := rfl

theorem runFrom_onSecond (x : Stateful ε τ α) (s : σ) (t : τ) :
    (onSecond x).runFrom (s, t) = ((x.runFrom t).1, (s, (x.runFrom t).2)) := rfl

end RowStream.Stateful
