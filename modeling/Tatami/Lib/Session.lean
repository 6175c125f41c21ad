import Tatami.Lib.Checked
import Tatami.Lib.Reactor

/-! # Machines that are stepped and fed

A machine answers each `step` with an event, with its outcome, or by asking for more input; a caller
steps it, feeds it the next piece when it asks, and signals the end of the input after the last one
(`Machine.Session`). Where every answer is a function of a state and of the bytes held (`Look`), a
session is a run of a reactor on the whole stream (`Machine.Session.whole`): how the stream was cut
does not matter to the events and the verdict. What an outcome says beyond its verdict is a function
of the bytes behind it that had arrived.

* `Machine.Session`: the calls, their events and outcome, and what was fed;
* `Look`, `Steady`: answers as functions of state and held bytes, unchanged by bytes behind them;
* `Implements`: a machine answers by such a function;
* `Machine.Session.whole`, `exists_session`: a session is a run on the whole stream, and there is
  one on every stream;
* `ChunkIndependent`: what follows for the caller. -/

namespace Tatami

open Reactor

variable {μ σ β ε ω ν : Type*}

/-! ### Sessions -/

/-- What a machine says when it is stepped. -/
inductive Answer (ε ω : Type*) where
  | needMore
  | event (e : ε)
  | finished (o : ω)
  deriving DecidableEq

/-- The calls of a machine. -/
structure Machine (μ β ε ω : Type*) where
  step : μ → Checked (Answer ε ω × μ)
  feed : List β → μ → μ
  inputEnded : μ → ω × μ
  room : μ → Nat

namespace Machine

/-- `A.Session m pieces events o arrived m'`: stepped until it has an outcome and fed the pieces,
none of them empty or larger than the room for it, `m` reports `events` and comes to `o`; `arrived`
is what it was fed. -/
inductive Session (A : Machine μ β ε ω) :
    μ → List (List β) → List ε → ω → List β → μ → Prop where
  | event {m m' m'' : μ} {pieces : List (List β)} {e : ε} {events : List ε} {o : ω}
      {arrived : List β} (h : A.step m = .ok (.event e, m'))
      (rest : Session A m' pieces events o arrived m'') :
      Session A m pieces (e :: events) o arrived m''
  | feed {m m' m'' : μ} {piece : List β} {pieces : List (List β)} {events : List ε} {o : ω}
      {arrived : List β} (h : A.step m = .ok (.needMore, m')) (hpiece : piece ≠ [])
      (hroom : piece.length ≤ A.room m')
      (rest : Session A (A.feed piece m') pieces events o arrived m'') :
      Session A m (piece :: pieces) events o (piece ++ arrived) m''
  | ended {m m' m'' : μ} {o : ω} (h : A.step m = .ok (.needMore, m'))
      (hended : A.inputEnded m' = (o, m'')) : Session A m [] [] o [] m''
  | finished {m m' : μ} {pieces : List (List β)} {o : ω} (h : A.step m = .ok (.finished o, m')) :
      Session A m pieces [] o [] m'

/-- `A.Progress m pieces events m'`: stepped and fed the pieces, when it asked for them and within
the room, `m` has reported `events` and come to `m'`. It may have been stepped again while it asked
for more. -/
inductive Progress (A : Machine μ β ε ω) (m : μ) : List (List β) → List ε → μ → Prop where
  | start : Progress A m [] [] m
  | event {m₁ m₂ : μ} {pieces : List (List β)} {events : List ε} {e : ε}
      (h : Progress A m pieces events m₁) (hstep : A.step m₁ = .ok (.event e, m₂)) :
      Progress A m pieces (events ++ [e]) m₂
  | look {m₁ m₂ : μ} {pieces : List (List β)} {events : List ε}
      (h : Progress A m pieces events m₁) (hstep : A.step m₁ = .ok (.needMore, m₂)) :
      Progress A m pieces events m₂
  | feed {m₁ m₂ : μ} {pieces : List (List β)} {events : List ε} {piece : List β}
      (h : Progress A m pieces events m₁) (hstep : A.step m₁ = .ok (.needMore, m₂))
      (hpiece : piece ≠ []) (hroom : piece.length ≤ A.room m₂) :
      Progress A m (pieces ++ [piece]) events (A.feed piece m₂)

/-- A call that changes a machine, with what it returned. -/
inductive Call (β ε ω : Type*) where
  | feed (data : List β)
  | step (answer : Answer ε ω)
  | inputEnded (o : ω)

/-- The step relation of a run of calls. -/
def Calls (A : Machine μ β ε ω) (m : μ) : Call β ε ω → μ → Prop
  | .feed data, m' => m' = A.feed data m
  | .step answer, m' => A.step m = .ok (answer, m')
  | .inputEnded o, m' => A.inputEnded m = (o, m')

/-- A machine that stays with its outcome, whatever is called. -/
structure Rests (A : Machine μ β ε ω) (o : ω) (m : μ) : Prop where
  step : A.step m = .ok (.finished o, m)
  inputEnded : A.inputEnded m = (o, m)
  feed : ∀ d, A.feed d m = m

/-- A session as a function: there is none where a piece does not fit, within the fuel. -/
def serve (A : Machine μ β ε ω) : Nat → μ → List (List β) → Option (List ε × ω × List β × μ)
  | 0, _, _ => none
  | fuel + 1, m, pieces =>
    match A.step m, pieces with
    | .error _, _ => none
    | .ok (.event e, m'), pieces =>
      (serve A fuel m' pieces).map fun (events, rest) => (e :: events, rest)
    | .ok (.finished o, m'), _ => some ([], o, [], m')
    | .ok (.needMore, m'), [] => some ([], (A.inputEnded m').1, [], (A.inputEnded m').2)
    | .ok (.needMore, m'), piece :: pieces =>
      if piece.isEmpty || A.room m' < piece.length then none
      else (serve A fuel (A.feed piece m') pieces).map fun (events, o, arrived, m'') =>
        (events, o, piece ++ arrived, m'')

/-- What the function makes is a session. -/
theorem session_of_serve {A : Machine μ β ε ω} {fuel : Nat} {m m' : μ} {pieces : List (List β)}
    {events : List ε} {o : ω} {arrived : List β}
    (h : A.serve fuel m pieces = some (events, o, arrived, m')) :
    A.Session m pieces events o arrived m' := by
  fun_induction serve A fuel m pieces generalizing events o arrived m' with
  | case1 | case2 | case6 => cases h
  | case3 _ _ _ _ _ hstep ih =>
    obtain ⟨⟨_, _⟩, hrest, heq⟩ := Option.map_eq_some_iff.mp h
    cases heq
    exact .event hstep (ih hrest)
  | case4 _ _ _ _ _ hstep =>
    cases h
    exact .finished hstep
  | case5 _ _ _ hstep =>
    cases h
    exact .ended hstep rfl
  | case7 _ _ _ _ _ hstep hfits ih =>
    obtain ⟨_, hrest, heq⟩ := Option.map_eq_some_iff.mp h
    cases heq
    rw [Bool.or_eq_true, not_or, List.isEmpty_iff, decide_eq_true_eq, Nat.not_lt] at hfits
    exact .feed hstep hfits.1 hfits.2 (ih hrest)

/-- What arrived is the beginning of the stream. -/
theorem Session.arrived_le {A : Machine μ β ε ω} {m m' : μ} {pieces : List (List β)}
    {events : List ε} {o : ω} {arrived : List β} (h : A.Session m pieces events o arrived m') :
    arrived <+: pieces.flatten := by
  induction h with
  | event _ _ ih => exact ih
  | feed _ _ _ _ ih => exact (List.prefix_append_right_inj _).mpr ih
  | ended => exact List.prefix_refl _
  | finished => exact List.nil_prefix

end Machine

/-! ### Answers as functions of the held bytes -/

/-- What a state makes of the bytes that are held: an event or a verdict uses up `n` of them. -/
inductive Look (σ ε ν : Type*) where
  | needMore
  | event (e : ε) (s : σ) (n : Nat)
  | finished (v : ν) (n : Nat)

/-- An event uses up some of the `len` bytes that are held and leads to a state of `I`; a verdict is
about bytes that are held. -/
def Look.Fits (I : σ → Prop) (len : Nat) : Look σ ε ν → Prop
  | .needMore => True
  | .event _ s n => I s ∧ 1 ≤ n ∧ n ≤ len
  | .finished _ n => n ≤ len

/-- In states of `I`, what is made of some bytes does not change when more follow. -/
structure Steady (look : σ → List β → Look σ ε ν) (I : σ → Prop) : Prop where
  fits : ∀ {s w}, I s → (look s w).Fits I w.length
  append : ∀ {s w}, I s → look s w ≠ .needMore → ∀ d, look s (w ++ d) = look s w

namespace Steady

variable {look : σ → List β → Look σ ε ν} {I : σ → Prop} {s s' : σ} {w : List β} {e : ε} {v : ν}
  {n : Nat}

/-- Events keep the invariant and use up some of the bytes. -/
theorem event (h : Steady look I) (hs : I s) (hlook : look s w = .event e s' n) :
    I s' ∧ 1 ≤ n ∧ n ≤ w.length := by
  have hfits := h.fits (w := w) hs
  rwa [hlook] at hfits

/-- A verdict is about bytes that are held. -/
theorem verdict (h : Steady look I) (hs : I s) (hlook : look s w = .finished v n) :
    n ≤ w.length := by
  have hfits := h.fits (w := w) hs
  rwa [hlook] at hfits

end Steady

/-- A state with the events so far and the number of bytes they used up. -/
structure Watch (σ ε : Type*) where
  state : σ
  events : List ε
  used : Nat

/-- A look as a turn of a reactor, which collects the events and counts the bytes. -/
def Watch.turn (look : σ → List β → Look σ ε ν) (x : Watch σ ε) (w : List β) :
    Turn (Watch σ ε) β (List ε × Nat × ν) :=
  match look x.state w with
  | .needMore => .wait
  | .event e s n => .go ⟨s, x.events ++ [e], x.used + n⟩ (w.drop n)
  | .finished v n => .stop (x.events, x.used + n, v)

/-- The result when the input ends. -/
def Watch.ended (eof : σ → ν) (x : Watch σ ε) : List ε × Nat × ν := (x.events, x.used, eof x.state)

theorem Watch.whole_event {look : σ → List β → Look σ ε ν} {eof : σ → ν} {x : Watch σ ε}
    {w : List β} {e : ε} {s : σ} {n : Nat} {r : List ε × Nat × ν}
    (hlook : look x.state w = .event e s n)
    (rest : Whole (Watch.turn look) (Watch.ended eof) ⟨s, x.events ++ [e], x.used + n⟩ (w.drop n)
      r) : Whole (Watch.turn look) (Watch.ended eof) x w r :=
  .go (by rw [Watch.turn, hlook]) rest

/-- A run that comes to a verdict at once. -/
theorem Watch.whole_finished {look : σ → List β → Look σ ε ν} {eof : σ → ν} {x : Watch σ ε}
    {w : List β} {v : ν} {n : Nat} (hlook : look x.state w = .finished v n) :
    Whole (Watch.turn look) (Watch.ended eof) x w (x.events, x.used + n, v) :=
  .stop (by rw [Watch.turn, hlook])

/-- What every event keeps, and what a run makes of it at its end. -/
theorem Watch.result {look : σ → List β → Look σ ε ν} {eof : σ → ν} {K : Watch σ ε → Prop}
    {P : List ε × Nat × ν → Prop} {x : Watch σ ε} {w : List β} {r : List ε × Nat × ν}
    (h : Whole (Watch.turn look) (Watch.ended eof) x w r) (hx : K x)
    (hevent : ∀ {x w e s n}, K x → look x.state w = .event e s n →
      K ⟨s, x.events ++ [e], x.used + n⟩)
    (hfinished : ∀ {x w v n}, K x → look x.state w = .finished v n → P (x.events, x.used + n, v))
    (hended : ∀ {x}, K x → P (Watch.ended eof x)) : P r := by
  refine h.result hx ?_ ?_ hended
  · intro x x' w w' hx hturn
    rw [Watch.turn] at hturn
    split at hturn
    · cases hturn
    · rename_i hlook
      cases hturn
      exact hevent hx hlook
    · cases hturn
  · intro x w r hx hturn
    rw [Watch.turn] at hturn
    split at hturn
    · cases hturn
    · cases hturn
    · rename_i hlook
      cases hturn
      exact hfinished hx hlook

theorem Steady.stable {look : σ → List β → Look σ ε ν} {I : σ → Prop} (h : Steady look I) :
    Stable (Watch.turn look) fun x => I x.state where
  keeps := by
    intro x x' w w' hx hturn
    rw [Watch.turn] at hturn
    split at hturn
    · cases hturn
    · rename_i e s n hlook
      cases hturn
      exact (h.event hx hlook).1
    · cases hturn
  append := by
    intro x w hx hturn d
    have hdecided : look x.state w ≠ .needMore := by
      intro hmore
      apply hturn
      rw [Watch.turn, hmore]
    rw [Watch.turn, Watch.turn, h.append hx hdecided d]
    split
    · rfl
    · rename_i e s n hlook
      rw [Turn.extend, List.drop_append_of_le_length (h.event hx hlook).2.2]
    · rfl

/-! ### Machines that answer so -/

/-- The machine answers by `look`: `view` is its state and `held` the bytes it holds. An outcome is
the verdict together with the held bytes behind it. -/
structure Implements (A : Machine μ β ε ω) (look : σ → List β → Look σ ε ν)
    (outcome : ν → List β → ω) (eof : σ → ν) (view : μ → σ) (held : μ → List β)
    (I : μ → Prop) : Prop where
  needMore : ∀ {m}, I m → look (view m) (held m) = .needMore → A.step m = .ok (.needMore, m)
  event : ∀ {m e s n}, I m → look (view m) (held m) = .event e s n →
    ∃ m', A.step m = .ok (.event e, m') ∧ I m' ∧ view m' = s ∧ held m' = (held m).drop n
  finished : ∀ {m v n}, I m → look (view m) (held m) = .finished v n →
    ∃ m', A.step m = .ok (.finished (outcome v ((held m).drop n)), m') ∧
      A.Rests (outcome v ((held m).drop n)) m'
  feed : ∀ {m d}, I m → look (view m) (held m) = .needMore → d.length ≤ A.room m →
    I (A.feed d m) ∧ view (A.feed d m) = view m ∧ held (A.feed d m) = held m ++ d
  ended : ∀ {m}, I m → look (view m) (held m) = .needMore →
    ∃ m', A.inputEnded m = (outcome (eof (view m)) (held m), m') ∧
      A.Rests (outcome (eof (view m)) (held m)) m'
  room : ∀ {m}, I m → look (view m) (held m) = .needMore → 1 ≤ A.room m

section Implements

variable {A : Machine μ β ε ω} {look : σ → List β → Look σ ε ν} {outcome : ν → List β → ω}
  {eof : σ → ν} {view : μ → σ} {held : μ → List β} {I : μ → Prop} {J : σ → Prop}

namespace Implements

variable (himpl : Implements A look outcome eof view held I) {m m' : μ} (hm : I m)
include himpl hm

/-- A machine that asks for more has found nothing. -/
theorem of_needMore (h : A.step m = .ok (.needMore, m')) :
    look (view m) (held m) = .needMore ∧ m' = m := by
  cases hlook : look (view m) (held m) with
  | needMore =>
    cases h.symm.trans (himpl.needMore hm hlook)
    exact ⟨rfl, rfl⟩
  | event =>
    obtain ⟨m₁, hstep, -⟩ := himpl.event hm hlook
    cases h.symm.trans hstep
  | finished =>
    obtain ⟨m₁, hstep, -⟩ := himpl.finished hm hlook
    cases h.symm.trans hstep

/-- A machine that reports an event has found it. -/
theorem of_event {e : ε} (h : A.step m = .ok (.event e, m')) :
    ∃ n, look (view m) (held m) = .event e (view m') n ∧ I m' ∧ held m' = (held m).drop n := by
  cases hlook : look (view m) (held m) with
  | needMore => cases h.symm.trans (himpl.needMore hm hlook)
  | event _ _ n =>
    obtain ⟨m₁, hstep, hm', rfl, hheld⟩ := himpl.event hm hlook
    cases h.symm.trans hstep
    exact ⟨n, rfl, hm', hheld⟩
  | finished =>
    obtain ⟨m₁, hstep, -⟩ := himpl.finished hm hlook
    cases h.symm.trans hstep

/-- A machine with an outcome has come to a verdict. -/
theorem of_finished {o : ω} (h : A.step m = .ok (.finished o, m')) :
    ∃ v n, look (view m) (held m) = .finished v n ∧ o = outcome v ((held m).drop n) ∧
      A.Rests o m' := by
  cases hlook : look (view m) (held m) with
  | needMore => cases h.symm.trans (himpl.needMore hm hlook)
  | event =>
    obtain ⟨m₁, hstep, -⟩ := himpl.event hm hlook
    cases h.symm.trans hstep
  | finished v n =>
    obtain ⟨m₁, hstep, hrests⟩ := himpl.finished hm hlook
    cases h.symm.trans hstep
    exact ⟨v, n, rfl, rfl, hrests⟩

end Implements

/-- A machine that answers by looks keeps its invariant on the way. -/
theorem Machine.Progress.keeps (himpl : Implements A look outcome eof view held I) {m m' : μ}
    {pieces : List (List β)} {events : List ε} (h : A.Progress m pieces events m') (hm : I m) :
    I m' := by
  induction h with
  | start => exact hm
  | event _ hstep ih => exact (himpl.of_event ih hstep).choose_spec.2.1
  | look _ hstep ih =>
    obtain ⟨-, rfl⟩ := himpl.of_needMore ih hstep
    exact ih
  | feed _ hstep _ hroom ih =>
    obtain ⟨hlook, rfl⟩ := himpl.of_needMore ih hstep
    exact (himpl.feed ih hlook hroom).1

/-- **A session goes on where the machine has come to.** -/
theorem Machine.Progress.session (himpl : Implements A look outcome eof view held I) {m m₁ m' : μ}
    {pieces rest : List (List β)} {events later : List ε} {o : ω} {arrived : List β}
    (h : A.Progress m pieces events m₁) (hm : I m)
    (hrest : A.Session m₁ rest later o arrived m') :
    A.Session m (pieces ++ rest) (events ++ later) o (pieces.flatten ++ arrived) m' := by
  induction h generalizing rest later arrived with
  | start => exact hrest
  | event h hstep ih =>
    rw [List.append_assoc]
    exact ih (.event hstep hrest)
  | look h hstep ih =>
    obtain ⟨-, rfl⟩ := himpl.of_needMore (h.keeps himpl hm) hstep
    exact ih hrest
  | feed h hstep hpiece hroom ih =>
    rw [List.append_assoc, List.flatten_append, List.append_assoc, List.flatten_singleton]
    exact ih (.feed hstep hpiece hroom hrest)

/-- **A session is a run of the reactor**, on the same pieces; its outcome is the verdict of the run
with the bytes that had arrived behind it, and it stays. Where no look came to the verdict, the
whole stream had arrived. -/
theorem Machine.Session.chunked (himpl : Implements A look outcome eof view held I)
    (hsteady : Steady look J) {m m' : μ} {pieces : List (List β)} {events : List ε} {o : ω}
    {arrived : List β} (h : A.Session m pieces events o arrived m') (hm : I m)
    (hJ : J (view m)) (given : List ε) (used : Nat) :
    ∃ n v, Chunked (Watch.turn look) (Watch.ended eof) ⟨view m, given, used⟩ (held m) pieces
        (given ++ events, used + n, v) ∧ n ≤ (held m ++ arrived).length ∧
      o = outcome v ((held m ++ arrived).drop n) ∧ A.Rests o m' ∧
      (arrived = pieces.flatten ∨ ∃ s w k, look s w = .finished v k) := by
  induction h generalizing given used with
  | @event m _ _ _ e _ _ _ hstep _ ih =>
    obtain ⟨n, hlook, hm', hheld⟩ := himpl.of_event hm hstep
    obtain ⟨hJ', -, hn⟩ := hsteady.event hJ hlook
    obtain ⟨k, v, hrun, hk, ho, hrests, hall⟩ := ih hm' hJ' (given ++ [e]) (used + n)
    rw [hheld, List.append_assoc, Nat.add_assoc] at hrun
    rw [hheld, ← List.drop_append_of_le_length hn] at hk ho
    refine ⟨n + k, v, .go ?_ hrun, ?_, ?_, hrests, hall⟩
    · rw [Watch.turn, hlook]
    · rw [List.length_drop] at hk
      rw [List.length_append] at hk ⊢
      omega
    · rw [ho, List.drop_drop]
  | feed hstep _ hroom _ ih =>
    obtain ⟨hlook, rfl⟩ := himpl.of_needMore hm hstep
    obtain ⟨hm', hview, hheld⟩ := himpl.feed hm hlook hroom
    obtain ⟨n, v, hrun, hn, ho, hrests, hall⟩ := ih hm' (hview.symm ▸ hJ) given used
    rw [hview, hheld] at hrun
    rw [hheld, List.append_assoc] at hn ho
    refine ⟨n, v, .feed ?_ hrun, hn, ho, hrests, hall.imp_left fun h => ?_⟩
    · rw [Watch.turn, hlook]
    · rw [h, List.flatten_cons]
  | ended hstep hended =>
    obtain ⟨hlook, rfl⟩ := himpl.of_needMore hm hstep
    obtain ⟨m', hended', hrests⟩ := himpl.ended hm hlook
    cases hended.symm.trans hended'
    rw [List.append_nil, List.append_nil]
    exact ⟨0, _, .ended (by rw [Watch.turn, hlook]), Nat.zero_le _, rfl, hrests, .inl rfl⟩
  | finished hstep =>
    obtain ⟨v, n, hlook, rfl, hrests⟩ := himpl.of_finished hm hstep
    rw [List.append_nil, List.append_nil]
    exact ⟨n, v, .stop (by rw [Watch.turn, hlook]), hsteady.verdict hJ hlook, rfl, hrests,
      .inr ⟨_, _, n, hlook⟩⟩

/-- A session of a machine that holds nothing is a run on the whole stream. -/
theorem Machine.Session.whole (himpl : Implements A look outcome eof view held I)
    (hsteady : Steady look J) {m m' : μ} {pieces : List (List β)} {events : List ε} {o : ω}
    {arrived : List β} (h : A.Session m pieces events o arrived m') (hm : I m) (hJ : J (view m))
    (hheld : held m = []) :
    ∃ n v, Whole (Watch.turn look) (Watch.ended eof) ⟨view m, [], 0⟩ pieces.flatten
        (events, n, v) ∧ n ≤ arrived.length ∧ o = outcome v (arrived.drop n) ∧ A.Rests o m' ∧
      (arrived = pieces.flatten ∨ ∃ s w k, look s w = .finished v k) := by
  obtain ⟨n, v, hrun, hn, ho, hrests, hall⟩ := h.chunked himpl hsteady hm hJ [] 0
  rw [hheld] at hrun hn ho
  rw [Nat.zero_add] at hrun
  exact ⟨n, v, hrun.whole hsteady.stable hJ, hn, ho, hrests, hall⟩

/-- There is a session on every stream: byte by byte, for one. -/
theorem exists_session (himpl : Implements A look outcome eof view held I)
    (hsteady : Steady look J) {m : μ} (hm : I m) (hJ : J (view m)) (stream : List β) :
    ∃ events o arrived m', A.Session m (stream.map fun b => [b]) events o arrived m' := by
  match hlook : look (view m) (held m) with
  | .finished v n =>
    obtain ⟨m', hstep, -⟩ := himpl.finished hm hlook
    exact ⟨_, _, _, _, .finished hstep⟩
  | .event e s n =>
    obtain ⟨m', hstep, hm', hview, hheld⟩ := himpl.event hm hlook
    obtain ⟨hJ', hn⟩ := hsteady.event hJ hlook
    have hshorter : (held m').length < (held m).length := by
      rw [hheld, List.length_drop]
      omega
    obtain ⟨events, o, arrived, m'', hrest⟩ :=
      exists_session himpl hsteady hm' (hview.symm ▸ hJ') stream
    exact ⟨_, _, _, _, .event hstep hrest⟩
  | .needMore =>
    have hstep := himpl.needMore hm hlook
    match stream with
    | [] =>
      obtain ⟨m', hended, -⟩ := himpl.ended hm hlook
      exact ⟨_, _, _, _, .ended hstep hended⟩
    | b :: stream =>
      have hroom : [b].length ≤ A.room m := himpl.room hm hlook
      obtain ⟨hm', hview, hheld⟩ := himpl.feed hm hlook hroom
      obtain ⟨events, o, arrived, m'', hrest⟩ :=
        exists_session himpl hsteady hm' (hview.symm ▸ hJ) stream
      exact ⟨_, _, _, _, .feed hstep (List.cons_ne_nil _ _) hroom hrest⟩
termination_by (stream.length, (held m).length)

/-- What a caller can rely on, however it cuts the stream. -/
structure ChunkIndependent (A : Machine μ β ε ω) (same : List β → List β → ω → ω → Prop)
    (m : μ) : Prop where
  /-- Sessions on one stream report the same events and have the same outcome, but for what depends
  on the bytes that had arrived. -/
  agree : ∀ {pieces₁ pieces₂ : List (List β)} {events₁ events₂ : List ε} {o₁ o₂ : ω}
    {arrived₁ arrived₂ : List β} {m₁ m₂ : μ}, A.Session m pieces₁ events₁ o₁ arrived₁ m₁ →
    A.Session m pieces₂ events₂ o₂ arrived₂ m₂ → pieces₁.flatten = pieces₂.flatten →
    events₁ = events₂ ∧ same arrived₁ arrived₂ o₁ o₂
  /-- What arrived is the beginning of the stream. -/
  arrived : ∀ {pieces : List (List β)} {events : List ε} {o : ω} {arrived : List β} {m' : μ},
    A.Session m pieces events o arrived m' → arrived <+: pieces.flatten
  /-- The outcome stays. -/
  rests : ∀ {pieces : List (List β)} {events : List ε} {o : ω} {arrived : List β} {m' : μ},
    A.Session m pieces events o arrived m' → A.Rests o m'
  /-- There is a session on every stream. -/
  served : ∀ stream : List β, ∃ pieces events o arrived m', pieces.flatten = stream ∧
    A.Session m pieces events o arrived m'

/-- A machine that answers by steady looks is chunk independent. -/
theorem Implements.chunkIndependent (himpl : Implements A look outcome eof view held I)
    (hsteady : Steady look J) {m : μ} (hm : I m) (hJ : J (view m)) (hheld : held m = [])
    {same : List β → List β → ω → ω → Prop}
    (hsame : ∀ {stream events n v arrived₁ arrived₂},
      Whole (Watch.turn look) (Watch.ended eof) ⟨view m, [], 0⟩ stream (events, n, v) →
      n ≤ arrived₁.length → n ≤ arrived₂.length →
      (arrived₁ = arrived₂ ∨ ∃ s w k, look s w = .finished v k) →
      same arrived₁ arrived₂ (outcome v (arrived₁.drop n)) (outcome v (arrived₂.drop n))) :
    ChunkIndependent A same m where
  agree h₁ h₂ hstream := by
    obtain ⟨_, _, hwhole₁, hn₁, rfl, -, hall₁⟩ := h₁.whole himpl hsteady hm hJ hheld
    obtain ⟨_, _, hwhole₂, hn₂, rfl, -, hall₂⟩ := h₂.whole himpl hsteady hm hJ hheld
    rw [← hstream] at hwhole₂ hall₂
    cases hwhole₁.unique hwhole₂
    refine ⟨rfl, hsame hwhole₁ hn₁ hn₂ ?_⟩
    rcases hall₁ with hall₁ | hlook
    · exact hall₂.imp_left fun hall₂ => hall₁.trans hall₂.symm
    · exact .inr hlook
  arrived h := h.arrived_le
  rests h := by
    obtain ⟨-, -, -, -, -, hrests, -⟩ := h.whole himpl hsteady hm hJ hheld
    exact hrests
  served stream := by
    obtain ⟨events, o, arrived, m', hsession⟩ := exists_session himpl hsteady hm hJ stream
    have hflatten : (stream.map fun b => [b]).flatten = stream := by
      rw [← List.flatMap_def, List.flatMap_singleton']
    exact ⟨_, events, o, arrived, m', hflatten, hsession⟩

end Implements

end Tatami
