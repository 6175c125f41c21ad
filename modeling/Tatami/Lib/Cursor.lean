import Mathlib.Tactic.Common

/-! # Fallible computations over a cursor

`Cursor σ ε α` reads or writes through a cursor `σ` and may fail with `ε`; the cursor it reached is
kept either way, so what a failed call leaves behind can be stated. Sequencing stops at the first
failure. `bind_ok_iff` and its companions invert a computation that succeeded, one call at a
time. -/

/-- A computation that moves a cursor and returns a value or an error. -/
def Cursor (σ ε α : Type) := σ → Except ε α × σ

namespace Cursor

variable {σ ε ε' α β : Type}

instance : Monad (Cursor σ ε) where
  pure a := fun s => (.ok a, s)
  bind x f := fun s =>
    match x s with
    | (.ok a, s') => f a s'
    | (.error e, s') => (.error e, s')

/-- Fails where the cursor stands. -/
def fail (e : ε) : Cursor σ ε α := fun s => (.error e, s)

/-- The cursor as it stands. -/
def here : Cursor σ ε σ := fun s => (.ok s, s)

/-- The same computation with its error translated (`Result::map_err`). -/
def mapError (g : ε → ε') (x : Cursor σ ε α) : Cursor σ ε' α := fun s =>
  match x s with
  | (.ok a, s') => (.ok a, s')
  | (.error e, s') => (.error (g e), s')

@[simp] theorem pure_apply (a : α) (s : σ) : (pure a : Cursor σ ε α) s = (.ok a, s) := rfl

theorem bind_apply_ok {x : Cursor σ ε α} {f : α → Cursor σ ε β} {s s' : σ} {a : α}
    (h : x s = (.ok a, s')) : (x >>= f) s = f a s' := by
  show (match x s with | (.ok a, s') => f a s' | (.error e, s') => (.error e, s')) = _
  rw [h]

theorem bind_apply_error {x : Cursor σ ε α} {f : α → Cursor σ ε β} {s s' : σ} {e : ε}
    (h : x s = (.error e, s')) : (x >>= f) s = (.error e, s') := by
  show (match x s with | (.ok a, s') => f a s' | (.error e, s') => (.error e, s')) = _
  rw [h]

@[simp] theorem here_apply (s : σ) : (here : Cursor σ ε σ) s = (.ok s, s) := rfl

/-- `pure` succeeds with its value and leaves the cursor. -/
theorem pure_ok_iff {a b : α} {s s' : σ} :
    (pure a : Cursor σ ε α) s = (.ok b, s') ↔ b = a ∧ s' = s := by
  simp [eq_comm]

theorem bind_ok_iff {x : Cursor σ ε α} {f : α → Cursor σ ε β} {s s' : σ} {b : β} :
    (x >>= f) s = (.ok b, s') ↔ ∃ a s₁, x s = (.ok a, s₁) ∧ f a s₁ = (.ok b, s') := by
  show (match x s with | (.ok a, s') => f a s' | (.error e, s') => (.error e, s')) = _ ↔ _
  rcases x s with ⟨_ | a, s₁⟩
  · simp
  · simp

theorem mapError_ok_iff {g : ε → ε'} {x : Cursor σ ε α} {s s' : σ} {a : α} :
    mapError g x s = (.ok a, s') ↔ x s = (.ok a, s') := by
  unfold mapError
  rcases x s with ⟨_ | b, _⟩
  · simp
  · simp

theorem fail_ne_ok {e : ε} {s s' : σ} {a : α} : (fail e : Cursor σ ε α) s ≠ (.ok a, s') := by
  simp [fail]

/-- The answer is a success iff the cursor got somewhere with it. -/
theorem fst_ok_iff {x : Cursor σ ε α} {s : σ} {a : α} :
    (x s).1 = .ok a ↔ ∃ s', x s = (.ok a, s') := by
  constructor
  · intro h
    exact ⟨(x s).2, by rw [← h]⟩
  · rintro ⟨s', h⟩
    rw [h]

end Cursor
