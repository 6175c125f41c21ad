import Tatami.Lib.Checked

/-! # Computations that may panic or return an error

A Rust function with a `Result` and indexing in its body: the outer layer says whether it panicked,
the inner one what it returned. Sequencing stops at the first error or panic. -/

/-- A computation that panics, fails or returns a value. -/
abbrev Fallible (ε : Type) := ExceptT ε Checked

namespace Fallible

variable {α β ε : Type}

/-- It returned this value. -/
def Gives (x : Fallible ε α) (a : α) : Prop := x.run = .ok (.ok a)

/-- It failed with this error. -/
def Fails (x : Fallible ε α) (e : ε) : Prop := x.run = .ok (.error e)

/-- It did not panic. -/
def Safe (x : Fallible ε α) : Prop := Checked.Returns x.run

theorem gives_pure_iff {a b : α} : Gives (pure a : Fallible ε α) b ↔ b = a := by
  unfold Gives
  simp [ExceptT.run_pure, eq_comm]

theorem not_gives_throw {e : ε} {a : α} : ¬ Gives (throw e : Fallible ε α) a := nofun

/-- A result without a panic gives its value. -/
theorem gives_liftExcept_iff {x : Except ε α} {a : α} :
    Gives (liftM x : Fallible ε α) a ↔ x = .ok a := by
  cases x with
  | error => exact ⟨nofun, nofun⟩
  | ok => exact gives_pure_iff.trans ⟨fun h => h ▸ rfl, fun h => (Except.ok.inj h).symm⟩

/-- A computation without an error gives its value. -/
theorem gives_liftChecked_iff {x : Checked α} {a : α} :
    Gives (liftM x : Fallible ε α) a ↔ x = .ok a := by
  unfold Gives
  rw [ExceptT.run_liftM]
  cases x <;> simp

/-- A sequence gives a value when both parts do. -/
theorem gives_bind_iff {x : Fallible ε α} {f : α → Fallible ε β} {b : β} :
    Gives (x >>= f) b ↔ ∃ a, Gives x a ∧ Gives (f a) b := by
  unfold Gives
  rw [ExceptT.run_bind, Checked.bind_ok_iff]
  constructor
  · rintro ⟨result, hx, hf⟩
    cases result with
    | error => cases hf
    | ok a => exact ⟨a, hx, hf⟩
  · rintro ⟨a, hx, hf⟩
    exact ⟨.ok a, hx, hf⟩

theorem gives_adapt_iff {ε' : Type} {x : Fallible ε α} {f : ε → ε'} {a : α} :
    Gives (x.adapt f) a ↔ Gives x a := by
  -- only a value that was given is left after the cases
  rcases x with _ | (_ | _) <;> constructor <;> intro h <;> cases h
  all_goals rfl

/-- A sequence does not panic when its first part does not, and the second does not after it. -/
theorem Safe.bind_of_gives {x : Fallible ε α} {f : α → Fallible ε β} (hx : Safe x)
    (hf : ∀ a, Gives x a → Safe (f a)) : Safe (x >>= f) := by
  unfold Safe
  rw [ExceptT.run_bind]
  refine Checked.Returns.bind hx fun result hresult => ?_
  cases result with
  | error => exact Checked.returns_ok _
  | ok a => exact hf a hresult

/-- A sequence does not panic when no part does. -/
theorem Safe.bind {x : Fallible ε α} {f : α → Fallible ε β} (hx : Safe x) (hf : ∀ a, Safe (f a)) :
    Safe (x >>= f) :=
  hx.bind_of_gives fun a _ => hf a

theorem safe_pure (a : α) : Safe (pure a : Fallible ε α) := ⟨.ok a, rfl⟩

theorem safe_throw (e : ε) : Safe (throw e : Fallible ε α) := ⟨.error e, rfl⟩

theorem safe_liftExcept (x : Except ε α) : Safe (liftM x : Fallible ε α) := ⟨x, by cases x <;> rfl⟩

/-- A computation that returns does not panic. -/
theorem safe_liftChecked {x : Checked α} (h : Checked.Returns x) :
    Safe (liftM x : Fallible ε α) := by
  obtain ⟨a, rfl⟩ := h
  exact ⟨.ok a, rfl⟩

/-- A computation that returns is its value. -/
theorem liftChecked_ok (a : α) : (liftM (.ok a : Checked α) : Fallible ε α) = pure a := rfl

/-! ### Errors -/

theorem not_fails_pure {a : α} {e : ε} : ¬ Fails (pure a : Fallible ε α) e := nofun

theorem fails_throw_iff {e e' : ε} : Fails (throw e : Fallible ε α) e' ↔ e = e' := by
  unfold Fails
  simp [ExceptT.run_throw]

/-- After a value a sequence fails as its second part does. -/
theorem fails_bind_of_gives {x : Fallible ε α} {f : α → Fallible ε β} {a : α} {e : ε}
    (h : Gives x a) : Fails (x >>= f) e ↔ Fails (f a) e := by
  unfold Gives at h
  unfold Fails
  rw [ExceptT.run_bind, h, Checked.ok_bind]

/-- After an error a sequence fails with it. -/
theorem fails_bind_of_fails {x : Fallible ε α} {f : α → Fallible ε β} {e e' : ε}
    (h : Fails x e) : Fails (x >>= f) e' ↔ e = e' := by
  unfold Fails at h ⊢
  rw [ExceptT.run_bind, h, Checked.ok_bind]
  simp

/-- Converting the value neither adds an error nor takes one away. -/
theorem fails_bind_pure_iff {x : Fallible ε α} {f : α → β} {e : ε} :
    Fails (x >>= fun a => pure (f a)) e ↔ Fails x e := by
  unfold Fails
  rw [ExceptT.run_bind]
  cases x.run with
  | error => exact ⟨nofun, nofun⟩
  | ok result =>
    rw [Checked.ok_bind]
    cases result with
    | error => simp
    | ok => exact ⟨nofun, nofun⟩

/-- A computation that did not panic gave a value or failed. -/
theorem Safe.gives_or_fails {x : Fallible ε α} (h : Safe x) :
    (∃ a, Gives x a) ∨ ∃ e, Fails x e := by
  obtain ⟨result, hresult⟩ := h
  cases result with
  | error e => exact Or.inr ⟨e, hresult⟩
  | ok a => exact Or.inl ⟨a, hresult⟩

end Fallible
