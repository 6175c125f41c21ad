import Mathlib.Data.List.Basic

/-! # Reactors and the chunking of their input

A reactor looks at the input it has not used up yet and takes a turn: it moves on and leaves some of
the input, it waits for more, or it stops with a result. When a reactor that waits is told that
there is no more input, its result depends on its state alone.

`Whole` is the run on input that is all there; `Chunked` is the run on input that arrives piece by
piece, each piece when the reactor waits. If no turn that was taken changes when more input follows
(`Stable`), the two have the same result: how the input was cut does not matter. -/

namespace Tatami.Reactor

/-- What a reactor does when it is given input. -/
inductive Turn (σ β ρ : Type*) where
  /-- It moves on and leaves `rest`. -/
  | go (s : σ) (rest : List β)
  /-- It waits for more input. -/
  | wait
  /-- It stops. -/
  | stop (r : ρ)

/-- The turn that leaves `d` behind as well. -/
def Turn.extend {σ β ρ : Type*} (d : List β) : Turn σ β ρ → Turn σ β ρ
  | .go s rest => .go s (rest ++ d)
  | .wait => .wait
  | .stop r => .stop r

theorem Turn.extend_nil {σ β ρ : Type*} (t : Turn σ β ρ) : t.extend [] = t := by
  cases t with
  | go => rw [extend, List.append_nil]
  | wait => rfl
  | stop => rfl

variable {σ β ρ : Type*} (turn : σ → List β → Turn σ β ρ) (ended : σ → ρ)

/-- The run on input that is all there. -/
inductive Whole : σ → List β → ρ → Prop where
  | go {s s' : σ} {w w' : List β} {r : ρ} (h : turn s w = .go s' w') (rest : Whole s' w' r) :
      Whole s w r
  | ended {s : σ} {w : List β} (h : turn s w = .wait) : Whole s w (ended s)
  | stop {s : σ} {w : List β} {r : ρ} (h : turn s w = .stop r) : Whole s w r

/-- The run on input that arrives in pieces. -/
inductive Chunked : σ → List β → List (List β) → ρ → Prop where
  | go {s s' : σ} {w w' : List β} {chunks : List (List β)} {r : ρ} (h : turn s w = .go s' w')
      (rest : Chunked s' w' chunks r) : Chunked s w chunks r
  | feed {s : σ} {w chunk : List β} {chunks : List (List β)} {r : ρ} (h : turn s w = .wait)
      (rest : Chunked s (w ++ chunk) chunks r) : Chunked s w (chunk :: chunks) r
  | ended {s : σ} {w : List β} (h : turn s w = .wait) : Chunked s w [] (ended s)
  | stop {s : σ} {w : List β} {chunks : List (List β)} {r : ρ} (h : turn s w = .stop r) :
      Chunked s w chunks r

/-- Turns taken in states of `I` do not change when more input follows. -/
structure Stable (I : σ → Prop) : Prop where
  keeps : ∀ {s s' w w'}, I s → turn s w = .go s' w' → I s'
  append : ∀ {s w}, I s → turn s w ≠ .wait → ∀ d, turn s (w ++ d) = (turn s w).extend d

variable {turn ended}

namespace Whole

variable {s s' : σ} {w w' : List β} {r r' : ρ}

/-- After a move, the run is the one from there. -/
theorem of_go (hturn : turn s w = .go s' w') (h : Whole turn ended s w r) :
    Whole turn ended s' w' r := by
  cases h with
  | go h rest =>
    cases hturn.symm.trans h
    exact rest
  | ended h | stop h => cases hturn.symm.trans h

/-- A run that waits has come to the end of the input. -/
theorem of_wait (hturn : turn s w = .wait) (h : Whole turn ended s w r) : r = ended s := by
  cases h with
  | go h | stop h => cases hturn.symm.trans h
  | ended => rfl

/-- A run that stops has the result it stops with. -/
theorem of_stop (hturn : turn s w = .stop r') (h : Whole turn ended s w r) : r = r' := by
  cases h with
  | go h | ended h => cases hturn.symm.trans h
  | stop h =>
    cases hturn.symm.trans h
    rfl

theorem unique (h₁ : Whole turn ended s w r) (h₂ : Whole turn ended s w r') : r = r' := by
  induction h₁ with
  | go h _ ih => exact ih (h₂.of_go h)
  | ended h => exact (h₂.of_wait h).symm
  | stop h => exact (h₂.of_stop h).symm

/-- What every move keeps, and what a run makes of it at its end. -/
theorem result {I : σ → Prop} {P : ρ → Prop} (h : Whole turn ended s w r) (hs : I s)
    (hgo : ∀ {s s' w w'}, I s → turn s w = .go s' w' → I s')
    (hstop : ∀ {s w r}, I s → turn s w = .stop r → P r) (hended : ∀ {s}, I s → P (ended s)) :
    P r := by
  induction h with
  | go h _ ih => exact ih (hgo hs h)
  | ended => exact hended hs
  | stop h => exact hstop hs h

end Whole

/-- **A run on pieces is a run on the whole.** -/
theorem Chunked.whole {I : σ → Prop} (hstable : Stable turn I) {s : σ} {w : List β}
    {chunks : List (List β)} {r : ρ} (h : Chunked turn ended s w chunks r) (hs : I s) :
    Whole turn ended s (w ++ chunks.flatten) r := by
  induction h with
  | go h _ ih =>
    refine .go ?_ (ih (hstable.keeps hs h))
    rw [hstable.append hs (by rw [h]; nofun), h, Turn.extend]
  | feed _ _ ih =>
    rw [List.flatten_cons, ← List.append_assoc]
    exact ih hs
  | ended h =>
    rw [List.flatten_nil, List.append_nil]
    exact .ended h
  | stop h =>
    refine .stop ?_
    rw [hstable.append hs (by rw [h]; nofun), h, Turn.extend]

/-- A reactor that uses up some input whenever it moves on has a run on every input. -/
theorem exists_chunked
    (hshrinks : ∀ {s s' : σ} {w w' : List β}, turn s w = .go s' w' → w'.length < w.length) (s : σ)
    (w : List β) (chunks : List (List β)) : ∃ r, Chunked turn ended s w chunks r := by
  match hturn : turn s w with
  | .go s' w' =>
    have hless := hshrinks hturn
    obtain ⟨r, hrest⟩ := exists_chunked hshrinks s' w' chunks
    exact ⟨r, .go hturn hrest⟩
  | .stop r => exact ⟨r, .stop hturn⟩
  | .wait =>
    match chunks with
    | [] => exact ⟨_, .ended hturn⟩
    | chunk :: chunks =>
      obtain ⟨r, hrest⟩ := exists_chunked hshrinks s (w ++ chunk) chunks
      exact ⟨r, .feed hturn hrest⟩
termination_by (chunks.length, w.length)

/-- The run on pieces and the run on the whole are the same. -/
theorem chunked_iff_whole {I : σ → Prop} (hstable : Stable turn I)
    (hshrinks : ∀ {s s' : σ} {w w' : List β}, turn s w = .go s' w' → w'.length < w.length) {s : σ}
    {w : List β} {chunks : List (List β)} {r : ρ} (hs : I s) :
    Chunked turn ended s w chunks r ↔ Whole turn ended s (w ++ chunks.flatten) r := by
  refine ⟨fun h => h.whole hstable hs, fun h => ?_⟩
  have hexists : ∃ r, Chunked turn ended s w chunks r := exists_chunked hshrinks s w chunks
  obtain ⟨_, hrun⟩ := hexists
  rwa [h.unique (hrun.whole hstable hs)]

/-! ### Getting somewhere -/

variable (turn ended)

/-- From `x` with input `w`, a run gets to a state of `P` with `w'` left. -/
def Reaches (x : σ) (w : List β) (P : σ → Prop) (w' : List β) : Prop :=
  ∃ y, P y ∧ ∀ r, Whole turn ended y w' r → Whole turn ended x w r

variable {turn ended}

theorem Reaches.refl {x : σ} {w : List β} {P : σ → Prop} (h : P x) : Reaches turn ended x w P w :=
  ⟨x, h, fun _ hr => hr⟩

theorem Reaches.go {x y : σ} {w w' w'' : List β} {P : σ → Prop} (h : turn x w = .go y w')
    (hrest : Reaches turn ended y w' P w'') : Reaches turn ended x w P w'' := by
  obtain ⟨z, hz, hrun⟩ := hrest
  exact ⟨z, hz, fun r hr => .go h (hrun r hr)⟩

theorem Reaches.trans {x : σ} {w w' w'' : List β} {P Q : σ → Prop}
    (h : Reaches turn ended x w P w')
    (hnext : ∀ y, P y → Reaches turn ended y w' Q w'') : Reaches turn ended x w Q w'' := by
  obtain ⟨y, hy, hrun⟩ := h
  obtain ⟨z, hz, hrun'⟩ := hnext y hy
  exact ⟨z, hz, fun r hr => hrun r (hrun' r hr)⟩

end Tatami.Reactor
