import Tatami.Tcp.Handshake.Authentication

/-! # The output contract

What a driver may rely on: pending output is asked for before anything else happens, the bytes
handed out are whole messages of a fixed plan, and an outcome is final. -/

namespace Tatami.Tcp

open Tatami.Wire Tatami.Keys ClientHandshake

variable {C : Crypto} {h h' : ClientHandshake} {events : List Event}

/-! ### Steps that answer at once -/

/-- With an outcome, `step` answers it and changes nothing. -/
theorem step_of_outcome {o : HandshakeOutcome} (ho : h.state.outcome = some o) :
    h.step C = .ok (.finished o, h) := by
  rw [step, stepLoop, round]
  simp only [ho]
  rfl

/-- With output pending and no outcome, `step` asks to send and changes nothing. -/
theorem step_of_out (hnone : h.state.outcome = none) (hout : h.state.out ≠ []) :
    h.step C = .ok (.send, h) := by
  rw [step, stepLoop, round]
  simp only [hnone, if_pos hout]
  rfl

/-- With an outcome pending and the output taken, `step` adopts the outcome and reports it. -/
theorem step_of_pendingOutcome {o : HandshakeOutcome} (hnone : h.state.outcome = none)
    (hout : h.state.out = []) (hpending : h.state.pendingOutcome = some o) :
    h.step C = .ok (.finished o, { h with state := h.state.finish o }) := by
  have hrank : rank h.state h.buf = h.buf.buf.length + 1 := by rw [rank, hnone]; rfl
  -- one round adopts the outcome, the next one finds it
  rw [step, hrank, stepLoop, round]
  simp only [hnone, hout, hpending]
  rfl

/-- The answer of `step` while output is pending. -/
def pendingAnswer (s : State) : Step :=
  match s.outcome with
  | some o => .finished o
  | none => .send

/-- While output is pending, `step` asks to send or reports the outcome, and changes nothing. -/
theorem step_of_pending (hout : h.state.out ≠ []) :
    h.step C = .ok (pendingAnswer h.state, h) := by
  rw [pendingAnswer]
  cases ho : h.state.outcome with
  | some => exact step_of_outcome ho
  | none => exact step_of_out ho hout

/-! ### Finality -/

/-- With an outcome, every call leaves the machine as it is but for the output that is taken, and
the calls that report an outcome report this one. -/
theorem run_final {o : HandshakeOutcome} (hs : Basic h.state) (ho : h.state.outcome = some o)
    (hrun : Run (Calls C) h events h') :
    (∀ e ∈ events, (e.call = .step → e.reply = .step (.finished o)) ∧
      (e.call = .inputEnded → e.reply = .outcome o)) ∧
      h'.state.hist.queued = h.state.hist.queued ∧
      outputs events ++ h'.state.out = h.state.out := by
  refine (hrun.history (I := fun events t => Basic t.state ∧ t.state.outcome = some o ∧
    (∀ e ∈ events, (e.call = .step → e.reply = .step (.finished o)) ∧
      (e.call = .inputEnded → e.reply = .outcome o)) ∧
      t.state.hist.queued = h.state.hist.queued ∧
      outputs events ++ t.state.out = h.state.out) ⟨hs, ho, by simp, rfl, rfl⟩ ?_).2.2
  rintro events t e t' ⟨ht, hto, hreplies, hqueued, hbytes⟩ ⟨-, hcall⟩
  have heffect := call_effect ht hcall
  have hdrained := heffect.moves.settled ht hto
  have hto' : t'.state.outcome = some o := by rw [hdrained.state_eq]; exact hto
  have hqueued' : t'.state.hist.queued = h.state.hist.queued := by
    rw [hdrained.state_eq]
    exact hqueued
  refine ⟨ht.moves heffect.moves, hto', ?_, hqueued', ?_⟩
  · intro e' he'
    rcases List.mem_append.mp he' with hold | hnew
    · exact hreplies e' hold
    obtain rfl := List.mem_singleton.mp hnew
    constructor
    · intro hstep
      rw [hstep, call, step_of_outcome hto, Checked.ok_bind] at hcall
      exact (congrArg Prod.fst (Except.ok.inj hcall)).symm
    · intro hended
      rw [hended, call, inputEnded, hto] at hcall
      exact (congrArg Prod.fst (Except.ok.inj hcall)).symm
  · have hmoved := hdrained.bytes
    rw [heffect.taken, List.append_assoc] at hmoved
    rw [outputs, List.flatMap_append, List.flatMap_singleton, List.append_assoc,
      List.append_cancel_left hmoved]
    exact hbytes

/-! ### The contract -/

section Contract

variable {ρ ε : Type} {tryFillBytes : (n : Nat) → ρ → Except ε (ByteVec n × ρ)}
  {config : HandshakeConfig} {rng : ρ} {provider : Option SignatureProvider}

/-- The bytes taken and still queued are those of the messages queued. -/
theorem outputs_append_out (hseal : C.SealTotal) (hb : Built C config provider h)
    (hrun : Run (Calls C) h events h') :
    outputs events ++ h'.state.out = wires h'.state.hist.queued := by
  have htaken : h'.state.hist.taken = outputs events := by
    rw [run_taken hrun hb.basic, hb.untouched.1, List.nil_append]
  rw [← (run_invariants hb hrun).output.bytes (.inl hseal), htaken]

/-- **The output contract.** In every run from `build`, with a cipher that seals every packet
shorter than `2 ^ 32`: while output is pending `step` asks to send, or reports the outcome, and
changes nothing; the bytes taken and still queued are those of the first messages of the plan,
whole; a deliberate end was set only after all six messages were taken; and a reported outcome is
final. -/
theorem output_contract (hseal : C.SealTotal)
    (hb : build C tryFillBytes config rng provider = .ok (.ok h))
    (hrun : Run (Calls C) h events h') :
    (h'.state.out ≠ [] → h'.step C = .ok (pendingAnswer h'.state, h')) ∧
    (outputs events ++ h'.state.out = wires h'.state.hist.queued ∧
      Follows C h.setup h'.state.hist.verified h'.state.hist.queued) ∧
    (h'.state.outcome = some .completed ∨ h'.state.outcome = some .rekeyNotSupported →
      h'.state.hist.queued.length = 6 ∧ outputs events = wires h'.state.hist.queued) ∧
    ∀ e ∈ events, ∀ o, e.reply = .step (.finished o) →
      ∀ more h'', Run (Calls C) h' more h'' →
        (∀ e' ∈ more, (e'.call = .step → e'.reply = .step (.finished o)) ∧
          (e'.call = .inputEnded → e'.reply = .outcome o)) ∧
        h''.state.hist.queued = h'.state.hist.queued ∧
        outputs more ++ h''.state.out = h'.state.out := by
  have hbuilt := build_ok hb
  have hinv := run_invariants hbuilt hrun
  have hbytes := outputs_append_out hseal hbuilt hrun
  refine ⟨step_of_pending, ⟨hbytes, hinv.output.follows⟩, ?_, ?_⟩
  · -- both ends waited until the queue was empty
    have hanswered (o : HandshakeOutcome) (ho : h'.state.outcome = some o)
        (hfail : o.isFailure = false) :
        h'.state.hist.queued.length = 6 ∧ outputs events = wires h'.state.hist.queued := by
      obtain ⟨hlen, hout⟩ := hinv.output.answered o ho hfail
      refine ⟨hlen, ?_⟩
      rw [← hbytes, hout, List.append_nil]
    rintro (ho | ho)
    · exact hanswered _ ho rfl
    · exact hanswered _ ho rfl
  · intro e he o hreply more h'' hmore
    have ho := run_outcome hrun hbuilt.basic he (o := o) (by rw [hreply]; rfl)
    exact run_final (run_basic hbuilt hrun) ho hmore

/-- The reference handshake completes after all six of its messages were taken. -/
theorem output_contract_reference :
    ∃ events h', Run (Calls reference) Reference.client events h' ∧
      h'.state.outcome = some .completed ∧ h'.state.hist.queued.length = 6 ∧
      outputs events = wires h'.state.hist.queued := by
  obtain ⟨events, h', hrun, hdone⟩ := Reference.exists_run_completed
  exact ⟨events, h', hrun, hdone,
    (output_contract reference_sealTotal Reference.build_client hrun).2.2.1 (.inl hdone)⟩

end Contract

end Tatami.Tcp
