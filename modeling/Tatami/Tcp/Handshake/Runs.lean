import Tatami.Tcp.Handshake.Basic

/-! # Runs of public calls

A run starts from what `build` returns and makes any public calls in any order. Every call is a
sequence of moves, so an invariant of moves is an invariant of runs (`run_invariant`), and
what the ghost calls taken is what the calls handed out (`run_taken`). -/

namespace Tatami.Tcp

open Tatami.Wire Tatami.Keys Checked ClientHandshake List

variable {C : Crypto}

/-! ### What is taken -/

variable {config : HandshakeConfig} {o : HandshakeOutcome} {provider : Option SignatureProvider}
  {u : Setup} {s s' : State}

theorem Handled.taken {payload : Bytes} (h : Handled C u payload s s') :
    s'.hist.taken = s.hist.taken := by
  cases h with
  | failed h => rw [h.hist]
  | _ => rfl

theorem HandledProtected.taken {payload : Bytes} (h : HandledProtected C u payload s s') :
    s'.hist.taken = s.hist.taken := by
  cases h with
  | failed h => rw [h.hist]
  | _ => rfl

/-- A move takes the output or nothing. -/
theorem Move.taken (h : Move C u s s') :
    s'.hist.taken = s.hist.taken ++ s.out ∨ s'.hist.taken = s.hist.taken := by
  cases h with
  | takeOutput => exact .inl rfl
  | failed _ h => exact .inr (by rw [h.hist])
  | unprotected _ _ _ _ _ _ _ h => exact .inr h.taken
  | protectedPacket _ _ _ _ _ _ _ _ _ hhandled =>
    exact .inr hhandled.taken
  | _ => exact .inr rfl

/-- `step` takes no output and does not answer the trust question. -/
theorem stepLoop_kept {b b' : InputBuffer} {fuel : Nat} {answer : Step} (hs : Basic s)
    (h : stepLoop C u fuel s b = .ok (answer, s', b')) :
    s'.hist.taken = s.hist.taken ∧ s'.trust = s.trust := by
  refine stepLoop_rule (P := fun s _ => s'.hist.taken = s.hist.taken ∧ s'.trust = s.trust) hs h
    (fun _ _ => ⟨rfl, rfl⟩) ?_
  rintro s s₁ b b₁ hs hround ⟨hkept, hkeptTrust⟩
  cases hs.round_cases hround with
  | again _ hout move htrust =>
    refine ⟨?_, hkeptTrust.trans htrust⟩
    rcases move.taken with htaken | htaken
    · rw [hkept, htaken, hout, append_nil]
    · exact hkept.trans htaken

/-! ### Calls -/

section CallLemmas

variable {h h' : ClientHandshake} {c : Call} {r : Reply} {events : List Event}

/-- What a call does to the machine as a whole. -/
structure CallEffect (C : Crypto) (h : ClientHandshake) (c : Call) (r : Reply)
    (h' : ClientHandshake) : Prop where
  setup : h'.setup = h.setup
  moves : Moves C h.setup h.state h'.state
  capacity : h'.buf.capacity = h.buf.capacity
  taken : h'.state.hist.taken = h.state.hist.taken ++ r.bytes
  trust : h'.state.trust = h.state.trust ∨ ∃ decision, c = .provideTrust decision ∧
    h.phase = .trustDecision ∧ h'.state.trust = some decision

theorem callEffect_refl (hr : ∀ bytes, r ≠ .output bytes) : CallEffect C h c r h := by
  refine ⟨rfl, .refl, rfl, ?_, .inl rfl⟩
  cases r with
  | output bytes => exact absurd rfl (hr bytes)
  | _ => exact (append_nil _).symm

/-- **Every call is a sequence of moves.** -/
theorem call_effect (hs : Basic h.state) (hc : h.call C c = .ok (r, h')) :
    CallEffect C h c r h' := by
  cases c with
  | feed data =>
    cases hc
    rw [feed]
    split
    · exact callEffect_refl (by simp)
    · rename_i hnone
      rw [Bool.not_eq_true, Option.isSome_eq_false_iff, Option.isNone_iff_eq_none] at hnone
      split
      · rename_i buf hpush
        exact ⟨rfl, .refl, (InputBuffer.push_ok_iff.mp hpush).2.2, (append_nil _).symm,
          .inl rfl⟩
      · exact ⟨rfl, .single (.failed hnone (failed_finish rfl)), rfl, (append_nil _).symm,
          .inl rfl⟩
  | step =>
    obtain ⟨⟨_, h₁⟩, hstep, hc⟩ := bind_ok_iff.mp hc
    cases hc
    obtain ⟨⟨_, state, buf⟩, hloop, heq⟩ := bind_ok_iff.mp hstep
    cases heq
    obtain ⟨hmoves, -, hcap⟩ := stepLoop_moves hs hloop
    obtain ⟨htaken, htrust⟩ := stepLoop_kept hs hloop
    exact ⟨rfl, hmoves, hcap, htaken.trans (append_nil _).symm, .inl htrust⟩
  | takeOutput =>
    cases hc
    exact ⟨rfl, .single .takeOutput, rfl, rfl, .inl rfl⟩
  | provideTrust decision =>
    obtain ⟨state, hstate, hc⟩ := bind_ok_iff.mp hc
    cases hc
    rcases provideTrust_cases (u := h.setup) hs.sendSeq_lt hstate with
      ⟨-, rfl⟩ | ⟨hphase, htrust, htaken, hmove⟩
    · exact ⟨rfl, .refl, rfl, (append_nil _).symm, .inl rfl⟩
    · exact ⟨rfl, .single hmove, rfl, htaken.trans (append_nil _).symm,
        .inr ⟨decision, rfl, hphase, htrust⟩⟩
  | inputEnded =>
    simp only [call, inputEnded] at hc
    split at hc
    · cases hc
      exact callEffect_refl (by simp)
    · rename_i hnone
      cases hc
      exact ⟨rfl, .single (.failed hnone (failed_finish rfl)), rfl, (append_nil _).symm,
        .inl rfl⟩
  | report =>
    obtain ⟨report, -, hc⟩ := bind_ok_iff.mp hc
    cases hc
    exact callEffect_refl (by simp)
  | room | phase =>
    cases hc
    exact callEffect_refl (by simp)

/-- A run keeps the setup and the capacity, and makes moves. -/
theorem run_effect (hs : Basic h.state) (hrun : Run (Calls C) h events h') :
    h'.setup = h.setup ∧ Moves C h.setup h.state h'.state ∧
      h'.buf.capacity = h.buf.capacity := by
  have hinit : h.setup = h.setup ∧ Moves C h.setup h.state h.state ∧
      h.buf.capacity = h.buf.capacity := ⟨rfl, .refl, rfl⟩
  refine hrun.invariant (I := fun t => t.setup = h.setup ∧ Moves C h.setup h.state t.state ∧
    t.buf.capacity = h.buf.capacity) hinit ?_
  rintro t e t' ⟨hsetup, hmoves, hcap⟩ ⟨-, hcall⟩
  have heffect := call_effect (hs.moves hmoves) hcall
  exact ⟨heffect.setup.trans hsetup, hmoves.trans (hsetup ▸ heffect.moves),
    heffect.capacity.trans hcap⟩

/-- **Invariant rule for runs**: what every move out of a basic state keeps holds after any run. -/
theorem run_invariant {I : State → Prop} (hrun : Run (Calls C) h events h')
    (hs : Basic h.state) (hinit : I h.state)
    (hmove : ∀ {t t' : State}, Basic t → I t → Move C h.setup t t' → I t') : I h'.state :=
  (run_effect hs hrun).2.1.invariant hs hinit hmove

/-- What the ghost calls taken is what the calls handed out. -/
theorem run_taken (hrun : Run (Calls C) h events h') (hs : Basic h.state) :
    h'.state.hist.taken = h.state.hist.taken ++ outputs events := by
  refine (hrun.history (I := fun events t => Basic t.state ∧
    t.state.hist.taken = h.state.hist.taken ++ outputs events) ⟨hs, ?_⟩ ?_).2
  · rw [outputs, flatMap_nil, append_nil]
  · rintro events t e t' ⟨ht, htaken⟩ ⟨-, hcall⟩
    have heffect := call_effect ht hcall
    refine ⟨ht.moves heffect.moves, ?_⟩
    rw [heffect.taken, htaken, append_assoc, outputs, outputs, flatMap_append,
      flatMap_singleton]

/-- `s'` is `s` but for output that moved from the queue to what was taken. -/
structure Drained (s s' : State) : Prop where
  state_eq : s' = { s with out := s'.out, hist := { s.hist with taken := s'.hist.taken } }
  bytes : s'.hist.taken ++ s'.out = s.hist.taken ++ s.out

/-- With an outcome, only the queued output can still be taken. -/
theorem Move.settled (hm : Move C u s s') (hs : Basic s) (ho : s.outcome = some o) :
    Drained s s' := by
  have hnot : s.outcome ≠ none := by rw [ho]; exact Option.some_ne_none o
  have hask : s.phase ≠ .trustDecision := by
    rw [hs.finished_iff.mpr hnot]
    decide
  cases hm with
  | takeOutput => exact ⟨rfl, append_nil _⟩
  | failed hnone | adopt _ hnone => exact absurd hnone hnot
  | distrust _ hphase | trust _ _ _ _ hphase => exact absurd hphase hask
  | prelude _ _ hidle | identified _ _ hidle | unprotected _ _ hidle | wrapped _ _ hidle
  | badPadding _ _ _ hidle | overBudget _ _ _ hidle | protectedPacket _ _ _ hidle
  | wrappedProtected _ _ _ hidle => exact absurd hidle.outcome hnot

/-- **With an outcome, the state is final** up to the output that is still taken. -/
theorem Moves.settled (hm : Moves C u s s') (hs : Basic s) (ho : s.outcome = some o) :
    Drained s s' := by
  induction hm with
  | refl => exact ⟨rfl, rfl⟩
  | tail hmoves hlast ih =>
    have hlate := hlast.settled (hs.moves hmoves) (o := o) (by rw [ih.state_eq]; exact ho)
    exact ⟨by rw [hlate.state_eq, ih.state_eq], hlate.bytes.trans ih.bytes⟩

theorem call_outcome (hs : Basic h.state) (hc : h.call C c = .ok (r, h'))
    (ho : r.outcome? = some o) :
    h'.state.outcome = some o := by
  cases c with
  | step =>
    obtain ⟨⟨_, h₁⟩, hstep, hc⟩ := bind_ok_iff.mp hc
    cases hc
    obtain ⟨⟨_, _, _⟩, hloop, heq⟩ := bind_ok_iff.mp hstep
    cases heq
    obtain ⟨-, hlast, -⟩ := stepLoop_moves hs hloop
    cases hlast with
    | finished _ ho' => exact ho'.trans ho
    | _ => cases ho
  | inputEnded =>
    simp only [call, inputEnded] at hc
    split at hc
    · rename_i o' ho'
      cases hc
      exact ho'.trans ho
    · cases hc
      exact ho
  | report =>
    obtain ⟨report, hreport, hc⟩ := bind_ok_iff.mp hc
    cases hc
    obtain ⟨_, -, hreport⟩ := bind_ok_iff.mp hreport
    cases hreport
    exact ho
  | provideTrust =>
    obtain ⟨_, -, hc⟩ := bind_ok_iff.mp hc
    cases hc
    cases ho
  | _ =>
    cases hc
    cases ho

/-- An outcome reported during a run is the outcome from then on. -/
theorem run_outcome {e : Event} (hrun : Run (Calls C) h events h') (hs : Basic h.state)
    (he : e ∈ events) (ho : e.reply.outcome? = some o) : h'.state.outcome = some o := by
  refine (hrun.history (I := fun events t => Basic t.state ∧
    ∀ e ∈ events, e.reply.outcome? = some o → t.state.outcome = some o)
    ⟨hs, by simp⟩ ?_).2 e he ho
  rintro events t e t' ⟨ht, hreported⟩ ⟨-, hcall⟩
  have hmoves := (call_effect ht hcall).moves
  refine ⟨ht.moves hmoves, fun e' he' ho' => ?_⟩
  rcases mem_append.mp he' with hold | hnew
  · rw [(hmoves.settled ht (hreported e' hold ho')).state_eq]
    exact hreported e' hold ho'
  · obtain rfl := mem_singleton.mp hnew
    exact call_outcome ht hcall ho'

end CallLemmas

/-! ### What `build` returns -/

/-- The state with the identification line queued. -/
def State.queueLine (line : Bytes) (s : State) : State :=
  { s with
    out := s.out ++ line, hist := { s.hist with queued := s.hist.queued ++ [.line line] } }

/-- A machine as `build` returns it. -/
structure Built (C : Crypto) (config : HandshakeConfig) (provider : Option SignatureProvider)
    (h : ClientHandshake) : Prop where
  config_eq : h.setup.config = config
  provider_eq : h.setup.provider = provider
  clientLine : ∃ content, h.setup.clientLine = content ++ [0x0d, 0x0a] ∧
    h.setup.clientLine.length ≤ maxIdentificationLine
  iC_le : h.setup.iC.length ≤ 512
  /-- Our proposal decodes; everything but the first two queued messages is as it starts. -/
  start : ∃ client secret seed wire padding, KexInit.decode h.setup.iC = .ok client ∧
    h.setup.clientKexinit = client.toOwned ∧ h.setup.qC = C.x25519Public secret ∧
    FrameOf h.setup.iC wire ∧
    h.state = ((initialState config (.new seed) (.fromSecretBytes C secret)
      (.offered client)).queueLine h.setup.clientLine).queueFramed h.setup.iC wire padding
  buf : ∃ capacity, config.bufferCapacity = .ok capacity ∧ h.buf = .new capacity

/-- A machine is built around our identification and an encoded proposal. -/
theorem build_with {ρ ε : Type} {tryFillBytes : (n : Nat) → ρ → Except ε (ByteVec n × ρ)} {rng : ρ}
    {h : ClientHandshake} (hb : build C tryFillBytes config rng provider = .ok (.ok h)) :
    ∃ (line : Bytes) (proposal : ClientProposal) (secret seed : ByteVec 32),
      buildIdentification config.softwareVersion = .ok line ∧
      buildWith C config provider line (.fromSecretBytes C secret) seed proposal.kexInit.payload =
        .ok h := by
  rw [build] at hb
  split at hb
  · cases hb
  split at hb
  · cases hb
  rename_i line hline
  split at hb
  · cases hb
  split at hb
  · cases hb
  rename_i secret _ _
  split at hb
  · cases hb
  rename_i seed _ _
  simp only [ClientProposal.encode_eq] at hb
  obtain ⟨h', hwith, hok⟩ := map_ok_iff.mp hb
  obtain rfl : h' = h := Except.ok.inj hok
  exact ⟨line, _, secret, seed, hline, hwith⟩

theorem buildWith_ok {line : Bytes} {p : ClientProposal} {secret seed : ByteVec 32}
    {h : ClientHandshake}
    (hwith : buildWith C config provider line (.fromSecretBytes C secret) seed p.kexInit.payload =
      .ok h) :
    ∃ capacity padding wire, config.bufferCapacity = .ok capacity ∧
      FrameOf p.kexInit.payload wire ∧
      h.setup = ⟨config, provider, line, p.kexInit.payload, p.kexInit.toOwned,
        C.x25519Public secret⟩ ∧ h.buf = .new capacity ∧
      h.state = ((initialState config (.new seed) (.fromSecretBytes C secret)
        (.offered p.kexInit)).queueLine line).queueFramed p.kexInit.payload wire padding := by
  rw [buildWith, ClientProposal.decode_kexInit] at hwith
  obtain ⟨_, hclient, hwith⟩ := bind_ok_iff.mp hwith
  obtain rfl := Option.some.inj (expect_ok_iff.mp hclient)
  obtain ⟨capacity, hcapacity, hwith⟩ := bind_ok_iff.mp hwith
  have hshort := p.length_payload_le
  obtain ⟨padding, wire, hwire, hsend⟩ := sendUnprotected_eq C
    (s := (initialState config (.new seed) (.fromSecretBytes C secret)
      (.offered p.kexInit)).queueLine line)
    (show p.kexInit.payload.length < 2 ^ 31 by omega) (show 0 + 1 < 2 ^ 32 by decide)
  change (sendUnprotected C p.kexInit.payload ((initialState config (.new seed)
    (.fromSecretBytes C secret) (.offered p.kexInit)).queueLine line) >>= _) = _ at hwith
  rw [hsend, ok_bind] at hwith
  cases hwith
  exact ⟨capacity, padding, wire, hcapacity, hwire, rfl, rfl, rfl⟩

/-- **Inversion of `build`.** -/
theorem build_ok {ρ ε : Type} {tryFillBytes : (n : Nat) → ρ → Except ε (ByteVec n × ρ)} {rng : ρ}
    {h : ClientHandshake} (hb : build C tryFillBytes config rng provider = .ok (.ok h)) :
    Built C config provider h := by
  obtain ⟨line, p, secret, seed, hline, hwith⟩ := build_with hb
  obtain ⟨capacity, padding, wire, hcapacity, hwire, hsetup, hbuf, hstate⟩ := buildWith_ok hwith
  obtain ⟨content, hcontent, hmax⟩ := buildIdentification_ok hline
  have hiC : h.setup.iC = p.kexInit.payload := by rw [hsetup]
  have hown : h.setup.clientLine = line := by rw [hsetup]
  refine ⟨by rw [hsetup], by rw [hsetup], ⟨content, ?_⟩, ?_, ⟨p.kexInit, secret, seed, wire,
    padding, ?_, by rw [hsetup], by rw [hsetup], ?_, ?_⟩, ⟨capacity, hcapacity, hbuf⟩⟩
  · rw [hown]
    exact ⟨hcontent, hmax⟩
  · rw [hiC]
    exact p.length_payload_le
  · rw [hiC]
    exact p.decode_kexInit
  · rw [hiC]
    exact hwire
  · rw [hiC, hown]
    exact hstate

theorem Built.basic {h : ClientHandshake} (hb : Built C config provider h) : Basic h.state := by
  obtain ⟨_, _, _, _, _, -, -, -, -, hstate⟩ := hb.start
  rw [hstate]
  apply Basic.ongoing
  all_goals simp [initialState, State.queueLine, State.queueFramed, Phase.queued]

end Tatami.Tcp
