import Tatami.Lib.Octets
import Tatami.Keys.Trust

/-! # Sockets and clocks

The blocking drivers see the host through a few socket calls and a clock. `Seam` is any behaviour of
these, as functions on the state of an arbitrary environment: short reads and writes, interrupted
calls, timeouts and errors of every kind, and a clock that says anything. The one thing it promises
is that a call moves no more bytes than it was given room for.

Every call is entered in a log, from which it can be read what was sent, what was received and what
a driver failed of. `write_all_by` sends a prefix of its data, and all of it when it succeeds
(`writeAllBy_spec`). -/

namespace Tatami.Tcp

open Tatami.Keys

/-! ### Errors -/

/-- Kinds of socket errors; those that the drivers do not tell apart by a code. -/
inductive ErrorKind where
  | interrupted
  | wouldBlock
  | timedOut
  | writeZero
  | other (code : Nat)
  deriving DecidableEq, Repr

/-- A socket error. -/
structure SocketError where
  kind : ErrorKind
  message : String
  deriving DecidableEq, Repr

/-- Whether an error is that of a call which ran out of time. -/
def SocketError.isTimeout (e : SocketError) : Bool := e.kind == .wouldBlock || e.kind == .timedOut

/-- The deadline passed before a write. -/
def SocketError.deadlinePassed : SocketError := ⟨.timedOut, "deadline passed"⟩
/-- A write ran out of time. -/
def SocketError.writeTimedOut : SocketError := ⟨.timedOut, "write timed out"⟩
/-- A write took nothing. -/
def SocketError.writeZero : SocketError := ⟨.writeZero, "peer stopped reading"⟩

/-! ### The environment -/

/-- A socket and a clock, over the states of an environment. Instants and durations are numbers of
ticks. -/
structure Seam (σ : Type) where
  now : σ → Nat × σ
  read : (want : Nat) → σ → Except SocketError Bytes × σ
  write : (data : Bytes) → σ → Except SocketError Nat × σ
  flush : σ → Except SocketError Unit × σ
  setReadTimeout : (timeout : Nat) → σ → Except SocketError Unit × σ
  setWriteTimeout : (timeout : Nat) → σ → Except SocketError Unit × σ
  /-- A read returns no more than was asked for. -/
  read_le : ∀ {want s bytes s'}, read want s = (.ok bytes, s') → bytes.length ≤ want
  /-- A write takes no more than was offered. -/
  write_le : ∀ {data s n s'}, write data s = (.ok n, s') → n ≤ data.length

/-- A call of a driver and its answer. -/
inductive Entry where
  | now (instant : Nat)
  /-- A read, with the room there was for it. -/
  | read (room want : Nat) (result : Except SocketError Bytes)
  | write (data : Bytes) (result : Except SocketError Nat)
  | flush (result : Except SocketError Unit)
  | setReadTimeout (timeout : Nat) (result : Except SocketError Unit)
  | setWriteTimeout (timeout : Nat) (result : Except SocketError Unit)
  /-- The trust policy was asked. -/
  | decide (host : HostIdentity) (decision : TrustDecision)

/-- The state of the environment and the log of the calls so far. -/
structure World (σ : Type) where
  env : σ
  log : List Entry

namespace Entry

/-- The bytes that a call sent. -/
def sent : Entry → Bytes
  | .write data (.ok n) => data.take n
  | _ => []

/-- The bytes that a call received, as one piece of the input. -/
def piece : Entry → List Bytes
  | .read _ _ (.ok (b :: bytes)) => [b :: bytes]
  | _ => []

/-- The question that a call put to the trust policy. -/
def question : Entry → List HostIdentity
  | .decide host _ => [host]
  | _ => []

/-- The error that a driver makes of the answer to a call, if it ends for it: an expired deadline, a
failed call, or a write that takes nothing. Interrupted reads and writes are repeated. -/
def failure (deadline : Nat) : Entry → Option SocketError
  | .now instant => if deadline ≤ instant then some .deadlinePassed else none
  | .read _ _ (.error e) => if e.kind = .interrupted then none else some e
  | .write _ (.ok 0) => some .writeZero
  | .write _ (.error e) =>
    if e.kind = .interrupted then none
    else if e.kind = .wouldBlock then some .writeTimedOut
    else some e
  | .flush (.error e) => some e
  | .setReadTimeout _ (.error e) => some e
  | .setWriteTimeout _ (.error e) => some e
  | _ => none

end Entry

namespace World

variable {σ : Type}

/-- Everything that was sent. -/
def written (w : World σ) : Bytes := w.log.flatMap Entry.sent

/-- Everything that was received, piece by piece. -/
def pieces (w : World σ) : List Bytes := w.log.flatMap Entry.piece

/-- Every question to the trust policy. -/
def questions (w : World σ) : List HostIdentity := w.log.flatMap Entry.question

/-- The world after one more call. -/
def enter (w : World σ) (env : σ) (entry : Entry) : World σ := ⟨env, w.log ++ [entry]⟩

variable (w : World σ) (env : σ) (entry : Entry)

@[simp] theorem log_enter : (w.enter env entry).log = w.log ++ [entry] := rfl

@[simp] theorem written_enter : (w.enter env entry).written = w.written ++ entry.sent := by
  simp [written]

@[simp] theorem pieces_enter : (w.enter env entry).pieces = w.pieces ++ entry.piece := by
  simp [pieces]

@[simp] theorem questions_enter :
    (w.enter env entry).questions = w.questions ++ entry.question := by
  simp [questions]

end World

/-! ### Calls -/

namespace Seam

variable {σ : Type} (m : Seam σ)

/-- Asks the clock. -/
def doNow (w : World σ) : Nat × World σ :=
  let (instant, env) := m.now w.env
  (instant, w.enter env (.now instant))

/-- Reads at most `want` bytes, with room for `room`. -/
def doRead (room want : Nat) (w : World σ) : Except SocketError Bytes × World σ :=
  let (result, env) := m.read want w.env
  (result, w.enter env (.read room want result))

/-- Offers `data` to the socket. -/
def doWrite (data : Bytes) (w : World σ) : Except SocketError Nat × World σ :=
  let (result, env) := m.write data w.env
  (result, w.enter env (.write data result))

/-- Flushes. -/
def doFlush (w : World σ) : Except SocketError Unit × World σ :=
  let (result, env) := m.flush w.env
  (result, w.enter env (.flush result))

/-- Bounds the reads that follow. -/
def doSetReadTimeout (timeout : Nat) (w : World σ) : Except SocketError Unit × World σ :=
  let (result, env) := m.setReadTimeout timeout w.env
  (result, w.enter env (.setReadTimeout timeout result))

/-- Bounds the writes that follow. -/
def doSetWriteTimeout (timeout : Nat) (w : World σ) : Except SocketError Unit × World σ :=
  let (result, env) := m.setWriteTimeout timeout w.env
  (result, w.enter env (.setWriteTimeout timeout result))

/-- Time left until `deadline`, or `none` once it has passed; never zero. -/
def remainingUntil (deadline : Nat) (w : World σ) : Option Nat × World σ :=
  let (instant, w) := m.doNow w
  (if deadline ≤ instant then none else some (deadline - instant), w)

/-- Writes all of `data` before `deadline`; `none` if the loop has not ended within the fuel. -/
def writeAllBy (deadline : Nat) :
    Nat → Bytes → World σ → Option (Except SocketError Unit) × World σ
  | 0, _, w => (none, w)
  | fuel + 1, data, w =>
    if data = [] then
      let (result, w) := m.doFlush w
      (some result, w)
    else
      match m.remainingUntil deadline w with
      | (none, w) => (some (.error .deadlinePassed), w)
      | (some remaining, w) =>
        match m.doSetWriteTimeout remaining w with
        | (.error e, w) => (some (.error e), w)
        | (.ok (), w) =>
          match m.doWrite data w with
          | (.ok 0, w) => (some (.error .writeZero), w)
          | (.ok (n + 1), w) => writeAllBy deadline fuel (data.drop (n + 1)) w
          | (.error e, w) =>
            if e.kind = .interrupted then writeAllBy deadline fuel data w
            else if e.kind = .wouldBlock then (some (.error .writeTimedOut), w)
            else (some (.error e), w)

end Seam

/-! ### What a call leaves alone -/

/-- An entry that is neither a read nor a question. -/
def Entry.aside : Entry → Bool
  | .read .. => false
  | .decide .. => false
  | _ => true

/-- `w'` is `w` after calls that neither read nor ask. -/
structure Aside {σ : Type} (w w' : World σ) : Prop where
  pieces : w'.pieces = w.pieces
  questions : w'.questions = w.questions
  reads : ∀ {room want result}, Entry.read room want result ∈ w'.log →
    Entry.read room want result ∈ w.log

namespace Aside

variable {σ : Type} {w w₁ w₂ : World σ}

theorem refl (w : World σ) : Aside w w := ⟨rfl, rfl, id⟩

theorem trans (h₁ : Aside w w₁) (h₂ : Aside w₁ w₂) : Aside w w₂ :=
  ⟨h₂.pieces.trans h₁.pieces, h₂.questions.trans h₁.questions, fun h => h₁.reads (h₂.reads h)⟩

theorem enter {env : σ} {entry : Entry} (h : entry.aside = true) : Aside w (w.enter env entry) := by
  have hpiece : entry.piece = [] := by
    cases entry with
    | read => cases h
    | _ => rfl
  have hquestion : entry.question = [] := by
    cases entry with
    | decide => cases h
    | _ => rfl
  refine ⟨by simp [hpiece], by simp [hquestion], fun hread => ?_⟩
  rcases List.mem_append.mp hread with hold | hnew
  · exact hold
  · obtain rfl := List.mem_singleton.mp hnew
    cases h

end Aside

/-- The last call of a driver that ended for `e`. -/
def FailedBy {σ : Type} (deadline : Nat) (w : World σ) (e : SocketError) : Prop :=
  ∃ entry, w.log.getLast? = some entry ∧ entry.failure deadline = some e

/-- The call just entered is the last one. -/
theorem failedBy_enter {σ : Type} {deadline : Nat} {w : World σ} {env : σ} {entry : Entry}
    {e : SocketError} (h : entry.failure deadline = some e) :
    FailedBy deadline (w.enter env entry) e :=
  ⟨entry, List.getLast?_concat, h⟩

/-! ### The calls, one by one -/

namespace Seam

variable {σ : Type} {m : Seam σ} {deadline : Nat} {w w' : World σ}

/-- A read is entered, and returns no more than was asked for. -/
theorem doRead_cases {room want : Nat} {r : Except SocketError Bytes}
    (h : m.doRead room want w = (r, w')) : ∃ env, w' = w.enter env (.read room want r) ∧
      ∀ bytes, r = .ok bytes → bytes.length ≤ want := by
  cases h
  exact ⟨_, rfl, fun bytes hok => m.read_le (Prod.ext hok rfl)⟩

/-- A write is entered, and takes no more than was offered. -/
theorem doWrite_cases {data : Bytes} {r : Except SocketError Nat}
    (h : m.doWrite data w = (r, w')) : ∃ env, w' = w.enter env (.write data r) ∧
      ∀ n, r = .ok n → n ≤ data.length := by
  cases h
  exact ⟨_, rfl, fun n hok => m.write_le (Prod.ext hok rfl)⟩

theorem doSetReadTimeout_cases {timeout : Nat} {r : Except SocketError Unit}
    (h : m.doSetReadTimeout timeout w = (r, w')) :
    ∃ env, w' = w.enter env (.setReadTimeout timeout r) := by
  cases h
  exact ⟨_, rfl⟩

theorem doSetWriteTimeout_cases {timeout : Nat} {r : Except SocketError Unit}
    (h : m.doSetWriteTimeout timeout w = (r, w')) :
    ∃ env, w' = w.enter env (.setWriteTimeout timeout r) := by
  cases h
  exact ⟨_, rfl⟩

/-- What is left until the deadline, or why nothing is. -/
theorem remainingUntil_cases {r : Option Nat} (h : m.remainingUntil deadline w = (r, w')) :
    Aside w w' ∧ w'.written = w.written ∧ (r = none → FailedBy deadline w' .deadlinePassed) := by
  cases h
  refine ⟨.enter rfl, by simp [Entry.sent], fun hnone => failedBy_enter ?_⟩
  simp only [ite_eq_left_iff, reduceCtorEq, imp_false, not_not] at hnone
  rw [Entry.failure, if_pos hnone]

/-- What `write_all_by` does: it sends a prefix of the data, all of it if it succeeds, and has a
call to blame if it fails. -/
structure Wrote (deadline : Nat) (data : Bytes) (r : Option (Except SocketError Unit))
    (w w' : World σ) : Prop where
  aside : Aside w w'
  sent : ∃ rest, w'.written ++ rest = w.written ++ data ∧ (r = some (.ok ()) → rest = [])
  failed : ∀ e, r = some (.error e) → FailedBy deadline w' e

/-- An attempt that failed before anything was sent. -/
theorem wrote_of_failed {data : Bytes} {e : SocketError} (haside : Aside w w')
    (hsent : w'.written = w.written) (hfailed : FailedBy deadline w' e) :
    Wrote deadline data (some (.error e)) w w' := by
  refine ⟨haside, ⟨data, by rw [hsent], nofun⟩, fun e' he => ?_⟩
  obtain rfl : e = e' := Except.error.inj (Option.some.inj he)
  exact hfailed

/-- The rest of an attempt after part of the data was sent. -/
theorem Wrote.after {data rest : Bytes} {r : Option (Except SocketError Unit)} {w₁ : World σ}
    (h : Wrote deadline rest r w₁ w') (haside : Aside w w₁)
    (hsent : w₁.written ++ rest = w.written ++ data) : Wrote deadline data r w w' := by
  obtain ⟨left, hleft, hall⟩ := h.sent
  exact ⟨haside.trans h.aside, ⟨left, hleft.trans hsent, hall⟩, h.failed⟩

/-- **No byte is lost or sent twice.** -/
theorem writeAllBy_spec {fuel : Nat} {data : Bytes} {r : Option (Except SocketError Unit)}
    (h : m.writeAllBy deadline fuel data w = (r, w')) : Wrote deadline data r w w' := by
  induction fuel generalizing data w with
  | zero =>
    cases h
    exact ⟨.refl _, ⟨data, rfl, nofun⟩, nofun⟩
  | succ fuel ih =>
    rw [writeAllBy] at h
    split at h
    · rename_i hdata
      cases h
      refine ⟨.enter rfl, ⟨[], by simp [Entry.sent, hdata], fun _ => rfl⟩, fun e he => ?_⟩
      refine failedBy_enter ?_
      rw [Option.some.inj he]
      rfl
    split at h
    · rename_i w₁ hremaining
      cases h
      obtain ⟨haside, hsent, hfailed⟩ := remainingUntil_cases hremaining
      exact wrote_of_failed haside hsent (hfailed rfl)
    rename_i remaining w₁ hremaining
    obtain ⟨haside, hsent, -⟩ := remainingUntil_cases hremaining
    split at h
    · rename_i e w₂ htimeout
      cases h
      obtain ⟨env, rfl⟩ := doSetWriteTimeout_cases htimeout
      exact wrote_of_failed (haside.trans (.enter rfl)) (by simp [Entry.sent, hsent])
        (failedBy_enter rfl)
    rename_i w₂ htimeout
    obtain ⟨env, rfl⟩ := doSetWriteTimeout_cases htimeout
    have haside₂ : Aside w (w₁.enter env (.setWriteTimeout remaining (.ok ()))) :=
      haside.trans (.enter rfl)
    split at h
    · rename_i w₃ hwrite
      cases h
      obtain ⟨env', rfl, -⟩ := doWrite_cases hwrite
      exact wrote_of_failed (haside₂.trans (.enter rfl)) (by simp [Entry.sent, hsent])
        (failedBy_enter rfl)
    · rename_i n w₃ hwrite
      obtain ⟨env', rfl, -⟩ := doWrite_cases hwrite
      exact (ih h).after (haside₂.trans (.enter rfl)) (by simp [Entry.sent, hsent])
    · rename_i e w₃ hwrite
      obtain ⟨env', rfl, -⟩ := doWrite_cases hwrite
      have haside₃ := haside₂.trans (show Aside _ (World.enter _ env' (.write data (.error e))) from
        .enter rfl)
      split at h
      · exact (ih h).after haside₃ (by simp [Entry.sent, hsent])
      rename_i hinterrupted
      split at h
      · rename_i hblock
        cases h
        refine wrote_of_failed haside₃ (by simp [Entry.sent, hsent]) (failedBy_enter ?_)
        rw [Entry.failure, if_neg hinterrupted, if_pos hblock]
      · rename_i hblock
        cases h
        refine wrote_of_failed haside₃ (by simp [Entry.sent, hsent]) (failedBy_enter ?_)
        rw [Entry.failure, if_neg hinterrupted, if_neg hblock]

end Seam

end Tatami.Tcp
