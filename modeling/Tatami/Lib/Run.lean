import Mathlib.Logic.Relation

/-! # Runs of a labelled transition system

A system is a relation `step : σ → ℓ → σ → Prop`: in a state, under a label, to a state. `Run`
chains its steps and keeps the labels in order. A property of a whole run is proved from what one
step preserves, either of the state alone (`Run.invariant`) or of the state together with the labels
so far (`Run.history`). -/

/-- The runs of a system from a state: the labels taken, in order, and the state reached. -/
inductive Run {σ ℓ : Type} (step : σ → ℓ → σ → Prop) (s : σ) : List ℓ → σ → Prop where
  | nil : Run step s [] s
  | snoc {ls : List ℓ} {t u : σ} {l : ℓ} (run : Run step s ls t) (last : step t l u) :
      Run step s (ls ++ [l]) u

namespace Run

variable {σ ℓ : Type} {step : σ → ℓ → σ → Prop} {s t : σ} {ls : List ℓ}

/-- **History rule**: what holds of the empty run and is kept by every step, labels included, holds
of every run. -/
theorem history {I : List ℓ → σ → Prop} (h : Run step s ls t) (hinit : I [] s)
    (hstep : ∀ {ls t l u}, I ls t → step t l u → I (ls ++ [l]) u) : I ls t := by
  induction h with
  | nil => exact hinit
  | snoc _ hlast ih => exact hstep ih hlast

/-- **Invariant rule**: what holds of the first state and is kept by every step holds of every state
reached. -/
theorem invariant {I : σ → Prop} (h : Run step s ls t) (hinit : I s)
    (hstep : ∀ {t l u}, I t → step t l u → I u) : I t :=
  h.history (I := fun _ => I) hinit hstep

/-- A step followed by a run is a run. -/
theorem cons {l : ℓ} {u : σ} (hfirst : step s l t) (h : Run step t ls u) :
    Run step s (l :: ls) u := by
  induction h with
  | nil => exact .snoc .nil hfirst
  | snoc _ hlast ih => exact .snoc ih hlast

/-- A run followed by a run is a run. -/
theorem append {ms : List ℓ} {u : σ} (h : Run step s ls t) (h' : Run step t ms u) :
    Run step s (ls ++ ms) u := by
  induction h' with
  | nil => rwa [List.append_nil]
  | snoc _ hlast ih =>
    rw [← List.append_assoc]
    exact .snoc ih hlast

/-- A run of a system is a run of one with more steps. -/
theorem imp {step' : σ → ℓ → σ → Prop} (h : Run step s ls t)
    (himp : ∀ {t l u}, step t l u → step' t l u) : Run step' s ls t := by
  induction h with
  | nil => exact .nil
  | snoc _ hlast ih => exact .snoc ih (himp hlast)

end Run
