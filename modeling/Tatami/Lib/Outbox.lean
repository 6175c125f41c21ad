import Mathlib.Data.List.Basic

/-! # A bounded channel with one consumer

Producers put items into a channel of bounded capacity without waiting; one consumer thread takes
them out in order and hands them to a function that may fail, after which it only drains the
channel. A channel of capacity 0 passes an item on only to a consumer that is waiting for it.

Every step of the consumer is a step of its own (`Outbox.consume`), so producers can run between any
two of them. What was put in and what was handed over are kept as histories. -/

namespace Tatami

/-- Where the consumer is. -/
inductive Consumer (α : Type) where
  /-- About to take an item. -/
  | receiving
  /-- Blocked on the empty channel. -/
  | parked
  /-- Has an item, about to test whether the function has failed. -/
  | testing (item : α)
  /-- Calling the function. -/
  | calling (item : α)
  /-- The function failed; about to say so. -/
  | failing (message : String)
  /-- About to store the message. -/
  | noting (message : String)
  /-- The channel is closed and empty. -/
  | finishing
  | done
  deriving DecidableEq

/-- The channel, its consumer and the histories. -/
structure Outbox (α : Type) where
  capacity : Nat
  queue : List α
  consumer : Consumer α
  /-- The function has failed. -/
  failed : Bool
  error : Option String
  /-- Everything that was put in, in order. -/
  put : List α
  /-- Everything that was handed over, in order. -/
  delivered : List α
  deriving DecidableEq

namespace Outbox

variable {α : Type}

/-- An empty channel. -/
def new (capacity : Nat) : Outbox α where
  capacity := capacity
  queue := []
  consumer := .receiving
  failed := false
  error := none
  put := []
  delivered := []

/-- Whether an item can be put in without waiting. -/
def fits (b : Outbox α) : Bool :=
  b.queue.length < b.capacity ||
    match b.consumer with
    | .parked => b.queue.isEmpty
    | _ => false

/-- Puts an item in, if it fits. -/
def trySend (item : α) (b : Outbox α) : Option (Outbox α) :=
  if b.fits then some { b with queue := b.queue ++ [item], put := b.put ++ [item] } else none

/-- Takes the next item, or sees that there is none. -/
def receive (closed : Bool) (b : Outbox α) : Option (Outbox α) :=
  match b.queue, b.consumer with
  | item :: queue, _ => some { b with queue, consumer := .testing item }
  | [], .parked => if closed then some { b with consumer := .finishing } else none
  | [], _ => some { b with consumer := if closed then .finishing else .parked }

/-- One step of the consumer, if it is not blocked; `answer` is that of the function, `closed`
whether there are no producers left. -/
def consume (closed : Bool) (answer : Except String Unit) (b : Outbox α) : Option (Outbox α) :=
  match b.consumer with
  | .receiving => b.receive closed
  | .parked => b.receive closed
  | .testing item =>
    some { b with consumer := if b.failed then .receiving else .calling item }
  | .calling item =>
    match answer with
    | .ok () => some { b with consumer := .receiving, delivered := b.delivered ++ [item] }
    | .error message =>
      some { b with consumer := .failing message, delivered := b.delivered ++ [item] }
  | .failing message => some { b with consumer := .noting message, failed := true }
  | .noting message => some { b with consumer := .receiving, error := some message }
  | .finishing => some { b with consumer := .done }
  | .done => none

theorem trySend_eq_some {item : α} {b b' : Outbox α} (h : b.trySend item = some b') :
    b.fits = true ∧ b' = { b with queue := b.queue ++ [item], put := b.put ++ [item] } := by
  rw [trySend] at h
  split at h
  · rename_i hfits
    cases h
    exact ⟨hfits, rfl⟩
  · cases h

/-- What taking an item does to a consumer that holds none. -/
theorem receive_eq_some {closed : Bool} {b b' : Outbox α} (h : b.receive closed = some b') :
    (∃ item queue, b.queue = item :: queue ∧ b' = { b with queue, consumer := .testing item }) ∨
      (b.queue = [] ∧ ∃ consumer, (consumer = .finishing ∨ consumer = .parked) ∧
        b' = { b with consumer }) := by
  rw [receive] at h
  split at h
  · rename_i item queue hqueue
    cases h
    exact .inl ⟨item, queue, hqueue, rfl⟩
  · rename_i hqueue hconsumer
    split at h
    · cases h
      exact .inr ⟨hqueue, _, .inl rfl, rfl⟩
    · cases h
  · rename_i hqueue hconsumer
    cases h
    refine .inr ⟨hqueue, _, ?_, rfl⟩
    cases closed with
    | true => exact .inl rfl
    | false => exact .inr rfl

/-- A step of the consumer puts nothing in. -/
theorem consume_put {closed : Bool} {answer : Except String Unit} {b b' : Outbox α}
    (h : b.consume closed answer = some b') : b'.put = b.put := by
  rw [consume] at h
  have hreceive (hr : b.receive closed = some b') : b'.put = b.put := by
    rcases receive_eq_some hr with ⟨item, queue, -, rfl⟩ | ⟨-, consumer, -, rfl⟩ <;> rfl
  split at h
  · exact hreceive h
  · exact hreceive h
  · cases h
    rfl
  · split at h <;> cases h <;> rfl
  · cases h
    rfl
  · cases h
    rfl
  · cases h
    rfl
  · cases h

end Outbox

end Tatami
