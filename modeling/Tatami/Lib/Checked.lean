import Mathlib.Tactic.Ring

/-! # Computations that may panic

A Rust function is modelled by a computation in `Checked`: it either returns a value or stops at a
panic. Machine integers are natural numbers and every arithmetic operation carries its own range
check, so an overflow is a visible outcome of the model and not a wrapped number. Errors that the
source *returns* (`Result`) are ordinary values inside `Checked`.

* `Panic` — the ways a computation can stop without a value.
* `Checked.add`/`Checked.sub`/`Checked.slice`/`Checked.index`/`Checked.expect` — the panicking
  primitives, each with the `_ok_iff` lemma that inverts it and the `_ok` lemma that runs it.
* `bind_ok_iff` — inversion of a sequence, the one lemma that peels computations apart. -/

/-- The ways a computation can stop without producing a value. -/
inductive Panic where
  /-- `Option::expect` / `Result::expect` on an absent value. -/
  | expect (message : String)
  /-- An `unreachable!` arm was taken. -/
  | unreachable (message : String)
  /-- An arithmetic operation left the range of its type. -/
  | overflow
  /-- An index or a slice reached outside its buffer. -/
  | outOfBounds
  /-- A loop of the model did not end within its fuel. -/
  | outOfFuel
  deriving DecidableEq, Repr

/-- A computation that returns a value or panics. -/
abbrev Checked := Except Panic

namespace Checked

variable {α β : Type}

/-! ### Sequencing -/

/-- A sequence returns iff its first part returns and the continuation returns. -/
theorem bind_ok_iff {x : Checked α} {f : α → Checked β} {b : β} :
    (x >>= f) = .ok b ↔ ∃ a, x = .ok a ∧ f a = .ok b := by
  cases x with
  | error | ok => simp [bind, Except.bind]

/-- Running a sequence whose first part is known to return. -/
@[simp] theorem ok_bind (a : α) (f : α → Checked β) : ((.ok a : Checked α) >>= f) = f a := rfl

@[simp] theorem error_bind (p : Panic) (f : α → Checked β) :
    ((.error p : Checked α) >>= f) = .error p := rfl

@[simp] theorem pure_eq_ok (a : α) : (pure a : Checked α) = .ok a := rfl

@[simp] theorem map_ok (f : α → β) (a : α) : (f <$> (.ok a : Checked α)) = .ok (f a) := rfl

@[simp] theorem map_error (f : α → β) (p : Panic) :
    (f <$> (.error p : Checked α)) = .error p := rfl

/-- A mapped computation returns iff the computation does. -/
theorem map_ok_iff {f : α → β} {x : Checked α} {b : β} :
    (f <$> x) = .ok b ↔ ∃ a, x = .ok a ∧ f a = b := by
  cases x <;> simp

/-! ### Panicking primitives -/

/-- `expect`: the value, or a panic with the given message. -/
def expect (message : String) : Option α → Checked α
  | some a => .ok a
  | none => .error (.expect message)

@[simp] theorem expect_some (message : String) (a : α) : expect message (some a) = .ok a := rfl

theorem expect_ok_iff {message : String} {o : Option α} {a : α} :
    expect message o = .ok a ↔ o = some a := by
  cases o <;> simp [expect]

/-- Addition in a type with `limit` values. -/
def add (limit a b : Nat) : Checked Nat :=
  if a + b < limit then .ok (a + b) else .error .overflow

variable {a b c : Nat}

/-- `add` returns iff the sum is in range. -/
theorem add_ok_iff {limit : Nat} : add limit a b = .ok c ↔ a + b < limit ∧ c = a + b := by
  unfold add
  by_cases h : a + b < limit
  · simp [h, eq_comm]
  · simp [h]

theorem add_ok {limit : Nat} (h : a + b < limit) : add limit a b = .ok (a + b) :=
  add_ok_iff.mpr ⟨h, rfl⟩

/-- Addition of two `usize` values on a 64-bit target. -/
def addUsize (a b : Nat) : Checked Nat := add (2 ^ 64) a b

/-- `addUsize` returns iff the sum is in range. -/
theorem addUsize_ok_iff : addUsize a b = .ok c ↔ a + b < 2 ^ 64 ∧ c = a + b :=
  add_ok_iff

theorem addUsize_ok (h : a + b < 2 ^ 64) : addUsize a b = .ok (a + b) := add_ok h

/-- `usize::saturating_add`. -/
def saturatingAdd (a b : Nat) : Nat := min (a + b) (2 ^ 64 - 1)

/-- `usize::checked_add`. -/
def checkedAdd (a b : Nat) : Option Nat := if a + b < 2 ^ 64 then some (a + b) else none

theorem checkedAdd_eq_some_iff : checkedAdd a b = some c ↔ a + b < 2 ^ 64 ∧ c = a + b := by
  unfold checkedAdd
  by_cases h : a + b < 2 ^ 64
  · rw [if_pos h, Option.some.injEq, eq_comm]
    exact ⟨fun heq => ⟨h, heq⟩, And.right⟩
  · rw [if_neg h]
    exact ⟨nofun, fun hsum => absurd hsum.1 h⟩

/-- Subtraction of two unsigned values. -/
def sub (a b : Nat) : Checked Nat := if b ≤ a then .ok (a - b) else .error .overflow

/-- `sub` returns iff the subtrahend is not larger. -/
theorem sub_ok_iff : sub a b = .ok c ↔ b ≤ a ∧ c = a - b := by
  unfold sub
  by_cases h : b ≤ a
  · simp [h, eq_comm]
  · simp [h]

theorem sub_ok (h : b ≤ a) : sub a b = .ok (a - b) := sub_ok_iff.mpr ⟨h, rfl⟩

/-- The slice `xs[lo..hi]`. -/
def slice (xs : List α) (lo hi : Nat) : Checked (List α) :=
  if lo ≤ hi ∧ hi ≤ xs.length then .ok ((xs.take hi).drop lo) else .error .outOfBounds

/-- `slice` returns iff the bounds are ordered and inside the buffer. -/
theorem slice_ok_iff {xs ys : List α} {lo hi : Nat} :
    slice xs lo hi = .ok ys ↔ (lo ≤ hi ∧ hi ≤ xs.length) ∧ ys = (xs.take hi).drop lo := by
  unfold slice
  by_cases h : lo ≤ hi ∧ hi ≤ xs.length
  · simp [h, eq_comm]
  · simp [h]

theorem slice_ok {xs : List α} {lo hi : Nat} (h : lo ≤ hi) (h' : hi ≤ xs.length) :
    slice xs lo hi = .ok ((xs.take hi).drop lo) := slice_ok_iff.mpr ⟨⟨h, h'⟩, rfl⟩

/-- The slice of `n` elements from `lo`, in the form `drop` then `take`. -/
theorem slice_add_ok {xs : List α} {lo n : Nat} (h : lo + n ≤ xs.length) :
    slice xs lo (lo + n) = .ok ((xs.drop lo).take n) := by
  rw [slice_ok (Nat.le_add_right lo n) h, List.drop_take, Nat.add_sub_cancel_left]

/-- The slice of what is known to stand at the start of a buffer. -/
theorem slice_written {xs ys : List α} (h : xs.take ys.length = ys) :
    slice xs 0 ys.length = .ok ys := by
  have hlen := congrArg List.length h
  rw [List.length_take] at hlen
  rw [slice_ok (Nat.zero_le _) (by omega), List.drop_zero, h]

/-- The element `xs[i]`. -/
def index (xs : List α) (i : Nat) : Checked α :=
  match xs[i]? with
  | some x => .ok x
  | none => .error .outOfBounds

theorem index_ok_iff {xs : List α} {i : Nat} {x : α} : index xs i = .ok x ↔ xs[i]? = some x := by
  unfold index
  split <;> simp_all

theorem index_ok {xs : List α} {i : Nat} (h : i < xs.length) : index xs i = .ok xs[i] :=
  index_ok_iff.mpr (List.getElem?_eq_getElem h)

/-- `xs[pos..pos + ys.len()].copy_from_slice(ys)`: overwrite part of a buffer in place. -/
def overwrite (xs : List α) (pos : Nat) (ys : List α) : Checked (List α) :=
  if pos + ys.length ≤ xs.length then .ok (xs.take pos ++ ys ++ xs.drop (pos + ys.length))
  else .error .outOfBounds

/-- `overwrite` inside the buffer: its length stays, and it begins with what stood before the
overwritten part, followed by the new bytes. -/
theorem exists_overwrite_eq_ok {xs ys : List α} {pos : Nat} (h : pos + ys.length ≤ xs.length) :
    ∃ zs, overwrite xs pos ys = .ok zs ∧ zs.length = xs.length ∧
      zs.take (pos + ys.length) = xs.take pos ++ ys := by
  have hbefore : (xs.take pos ++ ys).length = pos + ys.length := by
    rw [List.length_append, List.length_take]
    omega
  refine ⟨_, if_pos h, ?_, List.take_left' hbefore⟩
  rw [List.length_append, hbefore, List.length_drop]
  omega

/-- Writing on behind what was written: `bs` stands at the start of the buffer `xs`, and `ys` goes
right after it. -/
theorem overwrite_next {xs bs ys : List α} {pos : Nat} (hpos : bs.length = pos)
    (h : pos + ys.length ≤ xs.length) :
    overwrite (bs ++ xs.drop pos) pos ys = .ok (bs ++ ys ++ xs.drop (pos + ys.length)) := by
  subst hpos
  have hroom : bs.length + ys.length ≤ (bs ++ xs.drop bs.length).length := by
    rw [List.length_append, List.length_drop]
    omega
  rw [overwrite, if_pos hroom, List.take_left, ← List.drop_drop, List.drop_left, List.drop_drop]

/-! ### Returning at all -/

/-- The computation returns: it does not panic. -/
def Returns (x : Checked α) : Prop := ∃ a, x = .ok a

theorem returns_ok (a : α) : Returns (.ok a : Checked α) := ⟨a, rfl⟩

/-- A sequence returns when its first part does and the continuation does from every value the first
part can return. -/
theorem Returns.bind {x : Checked α} {f : α → Checked β} (hx : Returns x)
    (hf : ∀ a, x = .ok a → Returns (f a)) : Returns (x >>= f) := by
  obtain ⟨a, rfl⟩ := hx
  exact hf a rfl

end Checked
