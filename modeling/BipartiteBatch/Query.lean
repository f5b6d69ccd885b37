import BipartiteBatch.Error

/-!
# Queries to a stateful collaborator

A graph client or a negative sampler keeps a state, its random stream for one, that moves on with every
question, whether the answer is a value or a failure. A `Query σ α` is such a question: from a state it
gives an answer and the state after it. In a sequence of questions the first failure ends the sequence
and keeps the state that it left.
-/

namespace BipartiteBatch

/-- A question to a collaborator with state `σ`. -/
def Query (σ α : Type) : Type := σ → Except Failure α × σ

namespace Query

variable {σ τ α β : Type}

protected def pure (a : α) : Query σ α := fun s => (.ok a, s)

protected def bind (q : Query σ α) (f : α → Query σ β) : Query σ β := fun s =>
  match q s with
  | (.ok a, s) => f a s
  | (.error e, s) => (.error e, s)

instance : Monad (Query σ) where
  pure := Query.pure
  bind := Query.bind

/-- A result that does not depend on the state. -/
def lift (r : Except Failure α) : Query σ α := fun s => (r, s)

def fail (e : BatchError) : Query σ α := lift (.error (.error e))

/-- A question to a part of the state. -/
def focus (get : τ → σ) (set : τ → σ → τ) (q : Query σ α) : Query τ α := fun t =>
  match q (get t) with
  | (r, s) => (r, set t s)

@[simp] theorem pure_apply (a : α) (s : σ) : (pure a : Query σ α) s = (.ok a, s) := rfl

@[simp] theorem lift_apply (r : Except Failure α) (s : σ) : lift r s = (r, s) := rfl

theorem bind_apply (q : Query σ α) (f : α → Query σ β) (s : σ) :
    (q >>= f) s = match q s with
      | (.ok a, s) => f a s
      | (.error e, s) => (.error e, s) := rfl

theorem bind_ok {q : Query σ α} {f : α → Query σ β} {s s' : σ} {a : α}
    (h : q s = (.ok a, s')) : (q >>= f) s = f a s' := by
  rw [bind_apply, h]

theorem bind_error {q : Query σ α} {f : α → Query σ β} {s s' : σ} {e : Failure}
    (h : q s = (.error e, s')) : (q >>= f) s = (.error e, s') := by
  rw [bind_apply, h]

theorem bind_eq_ok {q : Query σ α} {f : α → Query σ β} {s s' : σ} {b : β} :
    (q >>= f) s = (.ok b, s') ↔ ∃ a t, q s = (.ok a, t) ∧ f a t = (.ok b, s') := by
  rw [bind_apply]
  constructor
  · intro h
    split at h
    · next a t hq => exact ⟨a, t, hq, h⟩
    · cases h
  · rintro ⟨a, t, hq, hf⟩
    rw [hq]
    exact hf

theorem bind_eq_error {q : Query σ α} {f : α → Query σ β} {s s' : σ} {e : Failure} :
    (q >>= f) s = (.error e, s')
      ↔ q s = (.error e, s') ∨ ∃ a t, q s = (.ok a, t) ∧ f a t = (.error e, s') := by
  rw [bind_apply]
  constructor
  · intro h
    split at h
    · next a t hq => exact .inr ⟨a, t, hq, h⟩
    · next e' t hq =>
      obtain ⟨he, rfl⟩ := Prod.mk.inj h
      obtain rfl := Except.error.inj he
      exact .inl hq
  · rintro (hq | ⟨a, t, hq, hf⟩)
    · rw [hq]
    · rw [hq]
      exact hf

theorem pure_eq_ok {a b : α} {s s' : σ} : (pure a : Query σ α) s = (.ok b, s') ↔ a = b ∧ s = s' := by
  rw [pure_apply, Prod.mk.injEq, Except.ok.injEq]

theorem lift_eq_ok {r : Except Failure α} {b : α} {s s' : σ} :
    lift r s = (.ok b, s') ↔ r = .ok b ∧ s = s' := by
  rw [lift_apply, Prod.mk.injEq]

theorem fail_ne_ok {e : BatchError} {b : α} {s s' : σ} : fail e s ≠ (.ok b, s') := by
  intro h
  cases h

theorem focus_eq_ok {get : τ → σ} {set : τ → σ → τ} {q : Query σ α} {t t' : τ} {b : α} :
    focus get set q t = (.ok b, t') ↔ ∃ s, q (get t) = (.ok b, s) ∧ t' = set t s := by
  unfold focus
  constructor
  · intro h
    obtain ⟨hr, ht⟩ := Prod.mk.inj h
    exact ⟨(q (get t)).2, Prod.ext hr rfl, ht.symm⟩
  · rintro ⟨s, hq, rfl⟩
    rw [hq]

end Query

end BipartiteBatch
