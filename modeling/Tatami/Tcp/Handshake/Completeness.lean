import Tatami.Tcp.FlowControl
import Tatami.Tcp.Handshake.Honest

/-! # Completeness against an honest server

No check fires on what an honest server sends. The proof follows the script: `Stage` says where the
machine stands between two packets and what it knows, one lemma for each kind of packet says which
stage it leads to, and the stages are chained over the whole stream as a run of the driver's
reactor, so that the result holds for every way of cutting the stream.

One counter does not follow its budget: the number of protected packets is kept in 32 bits while the
configuration counts them in a machine word, and packet number `2 ^ 32` overflows it. So the
handshake completes exactly if the server sends fewer protected packets than that
(`honest_completes_iff`). -/

namespace Tatami.Tcp

open Tatami.Wire Tatami.Keys Tatami.Reactor Reference Checked AeadDirection List

/-! ### Skipped messages -/

variable {a : AeadDirection} {nonce : ByteVec 12} {payload wire : Bytes}

/-- A message that may be skipped has a number of its kind, and is recorded. -/
theorem skip_of_skippable (h : Skippable payload) :
    ∃ number m, payload.head? = some number ∧ isSkip number = true ∧
      (IgnoreOrDebug payload → number = Msg.ignore ∨ number = Msg.debug) ∧
      ∀ s, skip number payload s = .ok { s with skipped := s.skipped ++ [m] } := by
  rcases h with (⟨m, hm⟩ | ⟨m, hm⟩) | ⟨m, hm⟩
  · refine ⟨Msg.ignore, .ignored m.data.length, head_of_decode hm, rfl, fun _ => .inl rfl,
      fun s => ?_⟩
    rw [skip, if_pos rfl, hm]
    rfl
  · refine ⟨Msg.debug, .debug m.alwaysDisplay m.message m.languageTag, head_of_decode hm, rfl,
      fun _ => .inr rfl, fun s => ?_⟩
    rw [skip, if_neg (by decide), if_pos rfl, hm]
    rfl
  · refine ⟨Msg.unimplemented, .unimplemented m.sequenceNumber, head_of_decode hm, rfl,
      fun hother => ?_, fun s => ?_⟩
    · have hhead := head_of_decode hm
      rcases hother with ⟨m', hm'⟩ | ⟨m', hm'⟩
      · rw [head_of_decode hm'] at hhead
        cases hhead
      · rw [head_of_decode hm'] at hhead
        cases hhead
    · rw [skip, if_neg (by decide), if_neg (by decide), if_pos rfl, hm]
      rfl

section Stages

variable {C : Crypto} {u : Setup} {policy : HostIdentityOwned → TrustDecision} {s s' : State}
  {output : Bytes} {p : Packet}

/-! ### One turn -/

theorem consume_full (a rest : Bytes) :
    ∃ b, (InputBuffer.full (a ++ rest)).consume a.length = .ok b ∧ b.buf = rest := by
  have hle : a.length ≤ (a ++ rest).length := by
    rw [length_append]
    omega
  obtain ⟨b, hb, hrest⟩ := InputBuffer.full_consume hle
  exact ⟨b, hb, hrest.trans drop_left⟩

/-- The state in which an unprotected packet is handled: it was taken and counted. -/
def State.receive (p : Packet) (s : State) : State :=
  (s.take p.payload (s.preKexBytes + p.frame.length)).count

/-- **One unprotected packet**: a legal frame within the budgets is taken, counted and handled. -/
theorem turn_packet (hs : Sound C u s) (hidle : s.Idle) (hphase : s.phase.isKex = true)
    (hlegal : LegalFrame u.config.packet p.payload p.padding)
    (hcount : s.preKexPackets < u.config.maxPreKexPackets.toNat)
    (hbytes : s.preKexBytes + p.frame.length ≤ u.config.maxPreKexBytes.toNat)
    (hhandled : handleUnprotected C u p.payload (s.receive p) = .ok s') (rest : Bytes) :
    turn C u policy (s, output) (p.frame ++ rest) = .go (s', output) rest := by
  have hframe : headerLen + p.payload.length + p.padding.length = p.frame.length :=
    (length_initialFrame _ _).symm
  have hdecision := initialDecision_frame hlegal rest
  have hmax := u.config.maxPreKexBytes.toNat_lt
  have hsum : saturatingAdd s.preKexBytes p.frame.length =
      s.preKexBytes + p.frame.length := by
    rw [saturatingAdd]
    omega
  rw [hframe] at hdecision
  rw [State.receive, ← hsum] at hhandled
  refine (turn_accepted hidle hphase hdecision hcount (hsum.trans_le hbytes)
    (hs.sequence.not_wraps hs.basic hphase) hhandled).trans ?_
  exact congrArg _ drop_left

/-- From this state, whatever was sent before, these bytes lead to a state with the property. -/
def Leads (C : Crypto) (u : Setup) (policy : HostIdentityOwned → TrustDecision) (s : State)
    (w : Bytes) (P : State → Prop) (rest : Bytes) : Prop :=
  ∀ output, Reaches (turn C u policy) (turnEnded u) (s, output) w (fun y => P y.1) rest

section Leads

variable {P Q : State → Prop} {w w' w'' : Bytes}

theorem Leads.refl (h : P s) : Leads C u policy s w P w := fun _ => .refl h

/-- Bytes that lead to a state from which the bytes behind them lead on. -/
theorem Leads.trans (h : Leads C u policy s w P w')
    (hnext : ∀ s', P s' → Leads C u policy s' w' Q w'') : Leads C u policy s w Q w'' :=
  fun output => (h output).trans fun y hy => hnext y.1 hy y.2

/-- If one turn takes input without output, and what is left leads on from the state it ends in,
then the input leads there. -/
theorem Leads.go (hs : Sound C u s)
    (hturn : ∀ output, turn C u policy (s, output) w = .go (s', output) w')
    (hnext : Sound C u s' → Leads C u policy s' w' P w'') : Leads C u policy s w P w'' :=
  fun output => .go (hturn output) (hnext (sound_of_go hs rfl (hturn output)) output)

/-- What is left to send is sent before anything is read. -/
theorem leads_sent (hs : Sound C u s) (hnone : s.outcome = none)
    (hpending : s.pendingOutcome = none)
    (hP : ∀ t, Sound C u t → t.Idle →
      (∃ out taken, t = { s with out, hist := { s.hist with taken } }) → P t) :
    Leads C u policy s w P w := by
  intro output
  by_cases hout : s.out = []
  · exact .refl (hP s hs ⟨hnone, hout, hpending⟩ ⟨s.out, s.hist.taken, rfl⟩)
  · refine .go (turn_send hnone hout w) (.refl ?_)
    exact hP _ (hs.move .takeOutput) ⟨hnone, rfl, hpending⟩ ⟨_, _, rfl⟩

end Leads

/-! ### Stages -/

/-- What a state knows of the key exchange. -/
structure Known where
  serverIdent : Option OwnedIdentification
  iS : Option Bytes
  negotiated : Option Negotiated
  strict : StrictKex
  guessDiscarded : Bool
  ephemeral : Option EphemeralKeyPair
  verified : Option Verified

/-- What a state knows of the key exchange. -/
def State.known (s : State) : Known where
  serverIdent := s.serverIdent
  iS := s.iS
  negotiated := s.negotiated
  strict := s.strict
  guessDiscarded := s.guessDiscarded
  ephemeral := s.ephemeral
  verified := s.hist.verified

/-- The machine is in a phase of the key exchange, waits for the next packet, and has taken so many
packets and bytes. -/
structure Stage (C : Crypto) (u : Setup) (phase : Phase) (packets bytes : Nat) (k : Known)
    (s : State) : Prop where
  sound : Sound C u s
  idle : s.Idle
  phase_eq : s.phase = phase
  packets_eq : s.preKexPackets = packets
  bytes_eq : s.preKexBytes = bytes
  known_eq : s.known = k

variable {phase : Phase} {packets bytes : Nat} {k : Known}

/-- Packets that are legal and that the budgets allow, after so many packets and bytes. -/
structure Affordable (u : Setup) (packets bytes : Nat) (ps : List Packet) : Prop where
  legal : ∀ p ∈ ps, LegalFrame u.config.packet p.payload p.padding
  count : packets + ps.length ≤ u.config.maxPreKexPackets.toNat
  bytes : bytes + (ps.flatMap Packet.frame).length ≤ u.config.maxPreKexBytes.toNat

section Affordable

variable {ps qs : List Packet}

/-- The next packet is legal, and there is room for it. -/
theorem Affordable.head (h : Affordable u packets bytes (p :: ps)) :
    LegalFrame u.config.packet p.payload p.padding ∧
      packets < u.config.maxPreKexPackets.toNat ∧
      bytes + p.frame.length ≤ u.config.maxPreKexBytes.toNat := by
  have hcount := h.count
  have hbytes := h.bytes
  rw [length_cons] at hcount
  rw [flatMap_cons, length_append] at hbytes
  exact ⟨h.legal p mem_cons_self, by omega, by omega⟩

/-- The packets before others, and those after them. -/
theorem Affordable.split (h : Affordable u packets bytes (ps ++ qs)) :
    Affordable u packets bytes ps ∧
      Affordable u (packets + ps.length) (bytes + (ps.flatMap Packet.frame).length) qs := by
  have hcount := h.count
  have hbytes := h.bytes
  rw [length_append] at hcount
  rw [flatMap_append, length_append] at hbytes
  exact ⟨⟨fun p hp => h.legal p (mem_append_left _ hp), by omega, by omega⟩,
    fun p hp => h.legal p (mem_append_right _ hp), by omega, by omega⟩

theorem Affordable.tail (h : Affordable u packets bytes (p :: ps)) :
    Affordable u (packets + 1) (bytes + p.frame.length) ps := by
  have hright := (Affordable.split (show Affordable u packets bytes ([p] ++ ps) from h)).2
  rwa [length_singleton, flatMap_singleton] at hright

end Affordable

variable {ps : List Packet}

/-- Once its output is sent, a state is at its stage. -/
theorem leads_stage (hs : Sound C u s) (hnone : s.outcome = none)
    (hpending : s.pendingOutcome = none) (hphase : s.phase = phase)
    (hpackets : s.preKexPackets = packets) (hbytes : s.preKexBytes = bytes)
    (hknown : s.known = k) (w : Bytes) :
    Leads C u policy s w (Stage C u phase packets bytes k) w := by
  refine leads_sent hs hnone hpending ?_
  rintro t ht hidle ⟨out, taken, rfl⟩
  exact ⟨ht, hidle, hphase, hpackets, hbytes, hknown⟩

/-- One packet that is handled, and then on. -/
theorem Stage.go {P : State → Prop} (h : Stage C u phase packets bytes k s)
    (hkex : phase.isKex = true) (hp : Affordable u packets bytes (p :: ps))
    (hhandled : handleUnprotected C u p.payload (s.receive p) = .ok s') {rest : Bytes}
    (hnext : Sound C u s' → Leads C u policy s' rest P rest) :
    Leads C u policy s (p.frame ++ rest) P rest := by
  obtain ⟨hlegal, hcount, hbytes⟩ := hp.head
  exact .go h.sound (fun output => turn_packet h.sound h.idle (h.phase_eq ▸ hkex) hlegal
    (h.packets_eq ▸ hcount) (h.bytes_eq ▸ hbytes) hhandled rest) hnext

/-- One packet that is handled leads to the next stage, after its answer is sent. -/
theorem Stage.packet {phase' : Phase} {k' : Known} (h : Stage C u phase packets bytes k s)
    (hkex : phase.isKex = true) (hp : Affordable u packets bytes (p :: ps))
    (hhandled : handleUnprotected C u p.payload (s.receive p) = .ok s')
    (hnone : s'.outcome = none) (hpending : s'.pendingOutcome = none) (hphase : s'.phase = phase')
    (hpackets : s'.preKexPackets = s.preKexPackets + 1)
    (hbytes : s'.preKexBytes = s.preKexBytes + p.frame.length) (hknown : s'.known = k')
    (rest : Bytes) :
    Leads C u policy s (p.frame ++ rest)
      (Stage C u phase' (packets + 1) (bytes + p.frame.length) k') rest := by
  refine h.go hkex hp hhandled fun hs' => leads_stage hs' hnone hpending hphase ?_ ?_ hknown rest
  · rw [hpackets, h.packets_eq]
  · rw [hbytes, h.bytes_eq]

/-- A message that may be skipped is recorded, whatever the phase, unless strict KEX forbids it. -/
theorem handleUnprotected_skip (hskip : Skippable payload) (hphase : s.phase.isKex = true)
    (hallowed : s.phase = .serverKexInit ∨ s.strictActive = false) :
    ∃ m, handleUnprotected C u payload s = .ok { s with skipped := s.skipped ++ [m] } := by
  obtain ⟨number, m, hhead, hnumber, -, hrecord⟩ := skip_of_skippable hskip
  refine ⟨m, ?_⟩
  rw [handleUnprotected, hhead, ← hrecord s]
  have hthree : number = Msg.ignore ∨ number = Msg.debug ∨ number = Msg.unimplemented := by
    simpa [isSkip, or_assoc] using hnumber
  have hkex (hs : s.strictActive = false) :
      handleKexMessage C u number payload s = skip number payload s := by
    rw [handleKexMessage, hs]
    rcases hthree with rfl | rfl | rfl <;> rfl
  cases hp : s.phase with
  | serverKexInit => rcases hthree with rfl | rfl | rfl <;> rfl
  | ecdhReply | serverNewKeys => exact hkex (hallowed.resolve_left (by rw [hp]; decide))
  | serverIdentification | trustDecision | service | finished => rw [hp] at hphase; cases hphase

/-- **Skipped messages** change nothing but the budgets. -/
theorem Stage.skips (h : Stage C u phase packets bytes k s)
    (hkex : phase.isKex = true)
    (hallowed : ps = [] ∨ phase = .serverKexInit ∨ k.strict.negotiated = false)
    (hskip : ∀ p ∈ ps, Skippable p.payload) (hp : Affordable u packets bytes ps)
    (rest : Bytes) :
    Leads C u policy s (ps.flatMap Packet.frame ++ rest)
      (Stage C u phase (packets + ps.length) (bytes + (ps.flatMap Packet.frame).length) k)
      rest := by
  induction ps generalizing s packets bytes with
  | nil => exact .refl h
  | cons p ps ih =>
    rw [flatMap_cons, length_append, length_cons, append_assoc]
    have hstrict : s.phase = .serverKexInit ∨ s.strictActive = false := by
      rw [h.phase_eq]
      refine (hallowed.resolve_left (cons_ne_nil p ps)).imp_right fun hno => ?_
      rw [← h.known_eq] at hno
      exact hno
    obtain ⟨m, hhandled⟩ := handleUnprotected_skip (C := C) (u := u) (s := s.receive p)
      (hskip p mem_cons_self) (h.phase_eq ▸ hkex) hstrict
    refine (h.packet hkex hp hhandled h.idle.outcome h.idle.pendingOutcome h.phase_eq rfl rfl
      h.known_eq _).trans fun s₁ h₁ => ?_
    have hrest := ih h₁ (.inr (hallowed.resolve_left (cons_ne_nil p ps)))
      (fun q hq => hskip q (mem_cons_of_mem _ hq)) hp.tail
    simpa only [Nat.add_assoc, Nat.add_comm 1] using hrest

/-! ### The key exchange -/

/-- Where a `KEXINIT` is expected, it is handled as one. -/
theorem handleUnprotected_kexInit (hphase : s.phase = .serverKexInit)
    (hhead : payload.head? = some Msg.kexInit) :
    handleUnprotected C u payload s = onServerKexinit C u payload s := by
  rw [handleUnprotected, hhead, hphase]
  rfl

/-- After the `KEXINIT`, a payload is a message of the key exchange. -/
theorem handleUnprotected_kex {number : UInt8}
    (hphase : s.phase = .ecdhReply ∨ s.phase = .serverNewKeys)
    (hhead : payload.head? = some number) :
    handleUnprotected C u payload s = handleKexMessage C u number payload s := by
  rw [handleUnprotected, hhead]
  rcases hphase with hphase | hphase <;> rw [hphase]

/-- The server `KEXINIT` is accepted if the two sides agree, and it is the first packet where strict
KEX asks for it. -/
theorem onServerKexinit_eq {client server : KexInit} {n : Negotiated}
    (hclient : KexInit.decode u.iC = .ok client) (hserver : KexInit.decode payload = .ok server)
    (hneg : negotiateProfile client server = .ok n)
    (hfirst : n.strictKex.negotiated = true → s.preKexPackets = 1) (hseq : s.sendSeq + 1 < 2 ^ 32) :
    ∃ padding wire, onServerKexinit C u payload s =
      .ok { (s.negotiate payload server n).queueFramed u.ecdhInit wire padding with
        phase := .ecdhReply } := by
  obtain ⟨_, hrun, hcase⟩ := onServerKexinit_decoded C hclient hserver hseq
  rw [hrun]
  cases hcase with
  | refused e hrefused => cases hneg.symm.trans hrefused
  | late _ hneg' hstrict hlate =>
    cases hneg.symm.trans hneg'
    exact absurd (hfirst hstrict) hlate
  | answered _ wire padding hneg' =>
    cases hneg.symm.trans hneg'
    exact ⟨padding, wire, rfl⟩

/-- **The server `KEXINIT`** leads to the wait for the reply. -/
theorem Stage.kexInit {n : Negotiated} {client server : KexInit}
    (h : Stage C u .serverKexInit packets bytes k s)
    (hp : Affordable u packets bytes (p :: ps))
    (hclient : KexInit.decode u.iC = .ok client) (hserver : KexInit.decode p.payload = .ok server)
    (hneg : negotiateProfile client server = .ok n)
    (hfirst : n.strictKex.negotiated = true → packets = 0) (rest : Bytes) :
    Leads C u policy s (p.frame ++ rest)
      (Stage C u .ecdhReply (packets + 1) (bytes + p.frame.length)
        { k with iS := some p.payload, negotiated := some n, strict := n.strictKex }) rest := by
  have hpackets := h.packets_eq
  obtain ⟨_, _, hrun⟩ := onServerKexinit_eq (C := C)
    (s := s.receive p) hclient hserver hneg
    (fun hstrict => show s.preKexPackets + 1 = 1 by rw [hpackets, hfirst hstrict])
    h.sound.basic.sendSeq_lt
  have hphase : (s.receive p).phase = .serverKexInit := h.phase_eq
  have hhandled := (handleUnprotected_kexInit hphase (head_of_decode hserver)).trans hrun
  refine h.packet rfl hp hhandled h.idle.outcome h.idle.pendingOutcome rfl rfl rfl ?_ rest
  rw [← h.known_eq]
  rfl

/-- **The wrongly guessed packet** is dropped. -/
theorem Stage.guess {n : Negotiated} {number : UInt8}
    (h : Stage C u .ecdhReply packets bytes k s)
    (hp : Affordable u packets bytes (p :: ps))
    (hhead : p.payload.head? = some number) (hspecific : Msg.isKexMethodSpecific number = true)
    (hn : k.negotiated = some n) (hwrong : n.serverGuessWrong = true)
    (hfirst : k.guessDiscarded = false) (rest : Bytes) :
    Leads C u policy s (p.frame ++ rest)
      (Stage C u .ecdhReply (packets + 1) (bytes + p.frame.length)
        { k with guessDiscarded := true }) rest := by
  have hnegotiated : s.negotiated = some n := (congrArg Known.negotiated h.known_eq).trans hn
  have hguess : s.guessDiscarded = false := (congrArg Known.guessDiscarded h.known_eq).trans hfirst
  have hphase : (s.receive p).phase = .ecdhReply := h.phase_eq
  have hhandled : handleUnprotected C u p.payload (s.receive p) =
      .ok { s.receive p with guessDiscarded := true } := by
    rw [handleUnprotected_kex (.inl hphase) hhead, handleKexMessage, if_pos]
    · rfl
    · change (Msg.isKexMethodSpecific number && s.phase == .ecdhReply &&
        s.negotiated.any (·.serverGuessWrong) && !s.guessDiscarded) = true
      rw [hspecific, h.phase_eq, hnegotiated, hguess, Option.any_some, hwrong]
      rfl
  refine h.packet rfl hp hhandled h.idle.outcome h.idle.pendingOutcome h.phase_eq rfl rfl ?_ rest
  rw [← h.known_eq]
  rfl

/-- A reply with an acceptable signature is accepted. -/
theorem onEcdhReply_eq {v : Verified} (h : Accepts C u s payload v) :
    ∃ summary identity, onEcdhReply C u payload s = .ok (s.verify C v summary identity) := by
  obtain ⟨blob, hblob, hkey⟩ := h.key
  obtain ⟨n, hn, hscheme⟩ := h.scheme
  obtain ⟨e, he, hagreed⟩ := h.agreed
  obtain ⟨i, hi, hvS⟩ := h.vS
  have hinputs : (⟨v.inputs.vC, i.line, u.iC, v.inputs.iS, v.reply.hostKeyBlob, u.qC.toBytes,
      v.reply.serverEphemeral⟩ : ExchangeHashInputs) = v.inputs := by
    rw [← hvS, ← h.iC, ← h.kS, ← h.qC, ← h.qS]
  have hverify : verifyReply C u v.key v.scheme v.hash v.reply.signatureBlob = .ok v.signature := by
    rw [verifyReply, h.signature]
    simp only
    rw [h.verified]
  rw [onEcdhReply, h.decoded]
  simp only [hblob, hkey, hn, Option.bind_some, hscheme]
  rw [if_neg (not_not.mpr h.keyType)]
  unfold finishReply
  simp only [he, hagreed, hi, h.iS, h.vC, expect_some, ok_bind, hinputs, h.hash,
    hverify, deriveAes128GcmKeys_eq]
  refine ⟨⟨fromUtf8Lossy (HostIdentity.fromBlob C blob).algorithm,
    (HostIdentity.fromBlob C blob).sha256, (HostIdentity.fromBlob C blob).blob.length⟩,
    ⟨fromUtf8Lossy (HostIdentity.fromBlob C blob).algorithm, (HostIdentity.fromBlob C blob).blob,
      (HostIdentity.fromBlob C blob).sha256⟩, ?_⟩
  rw [State.verify, hn, hi, h.iS]
  rfl

/-- **The reply** leads to the trust question. -/
theorem Stage.reply {v : Verified} (h : Stage C u .ecdhReply packets bytes k s)
    (hp : Affordable u packets bytes (p :: ps))
    (hguess : ∀ n, k.negotiated = some n → n.serverGuessWrong = true → k.guessDiscarded = true)
    (haccepts : Accepts C u s p.payload v) (rest : Bytes) :
    Leads C u policy s (p.frame ++ rest)
      (Stage C u .trustDecision (packets + 1) (bytes + p.frame.length)
        { k with ephemeral := none, verified := some v }) rest := by
  have hphase : (s.receive p).phase = .ecdhReply := h.phase_eq
  have haccepts' : Accepts C u (s.receive p) p.payload v := { haccepts with }
  obtain ⟨summary, identity, hrun⟩ := onEcdhReply_eq haccepts'
  have hhandled : handleUnprotected C u p.payload (s.receive p) =
      .ok ((s.receive p).verify C v summary identity) := by
    rw [handleUnprotected_kex (.inl hphase) (head_of_decode haccepts.decoded), handleKexMessage,
      if_neg, if_pos]
    · exact hrun
    · rw [hphase]
      rfl
    · -- a wrong guess was dropped already
      rw [← h.known_eq] at hguess
      change ¬(_ && _ && s.negotiated.any (·.serverGuessWrong) && !s.guessDiscarded) = true
      simp only [Bool.and_eq_true, Bool.not_eq_true', not_and, Bool.not_eq_false]
      intro hany
      obtain ⟨n, hn, hwrong⟩ := (Option.any_eq_true _ _).mp hany.2
      exact hguess n hn hwrong
  refine h.packet rfl hp hhandled h.idle.outcome h.idle.pendingOutcome rfl rfl rfl ?_ rest
  rw [← h.known_eq]
  rfl

/-- **The trust question**, answered with trust, leads to the wait for the server's `NEWKEYS`. -/
theorem Stage.trust {v : Verified} (h : Stage C u .trustDecision packets bytes k s)
    (hv : k.verified = some v) (hpolicy : ∀ identity, ∃ source, policy identity = .trusted source)
    (w : Bytes) : Leads C u policy s w (Stage C u .serverNewKeys packets bytes k) w := by
  have hverified : s.hist.verified = some v := (congrArg Known.verified h.known_eq).trans hv
  obtain ⟨identity, hidentity⟩ := Option.ne_none_iff_exists'.mp
    (h.sound.verification.identity h.phase_eq)
  obtain ⟨source, hsource⟩ := hpolicy identity
  obtain ⟨_, _, -, hanswer⟩ := provideTrust_trusted C source h.phase_eq
    h.sound.basic.sendSeq_lt
  rw [h.sound.verification.keys (.inl h.phase_eq) v hverified] at hanswer
  have hround : round C u s (.full w) =
      .ok (some (.trustDecisionRequired identity), s, .full w) := by
    rw [round, h.idle.outcome, h.idle.pendingOutcome, h.phase_eq, hidentity]
    simp only [h.idle.out, ne_eq, not_true_eq_false, if_false]
    rfl
  intro output
  have hturn : turn C u policy (s, output) w =
      answerRound C u policy output (.ok (some (.trustDecisionRequired identity), s, .full w)) := by
    rw [turn, hround]
  rw [answerRound, hsource, hanswer] at hturn
  refine .go hturn (leads_stage (sound_of_go h.sound rfl hturn) h.idle.outcome
    h.idle.pendingOutcome rfl h.packets_eq h.bytes_eq ?_ w output)
  rw [← h.known_eq]
  rfl

/-! ### Protected packets -/

/-- The machine waits for a protected packet and has received so many, all within the budget. -/
structure ServiceStage (C : Crypto) (u : Setup) (v : Verified) (received : Nat) (s : State) :
    Prop where
  sound : Sound C u s
  idle : s.Idle
  phase_eq : s.phase = .service
  verified_eq : s.hist.verified = some v
  accepted_eq : s.hist.accepted.length = received
  authenticated_eq : s.hist.authenticated.length = received

variable {v : Verified} {received : Nat}

/-- Once its output is sent, a state is at its stage. -/
theorem leads_service (hs : Sound C u s) (hnone : s.outcome = none)
    (hpending : s.pendingOutcome = none) (hphase : s.phase = .service)
    (hv : s.hist.verified = some v) (haccepted : s.hist.accepted.length = received)
    (hauthenticated : s.hist.authenticated.length = received) (w : Bytes) :
    Leads C u policy s w (ServiceStage C u v received) w := by
  refine leads_sent hs hnone hpending ?_
  rintro t ht hidle ⟨out, taken, rfl⟩
  exact ⟨ht, hidle, hphase, hv, haccepted, hauthenticated⟩

/-- Once our `NEWKEYS` is queued, the sending direction has sealed every protected packet in the
queue. -/
theorem Sound.sendAead_at (hs : Sound C u s) (hnone : s.outcome = none)
    (hpending : s.pendingOutcome = none)
    (hphase : s.phase = .serverNewKeys ∨ s.phase = .service) (hv : s.hist.verified = some v) :
    ∃ a, s.sendAead = some a ∧ a.At (v.sendKeys C) (s.phase.queued - 4) := by
  have hne := hs.basic.phase_ne hnone
  obtain ⟨_, a, hv', ha, hat⟩ := hs.output.sealing ((hs.basic.sent_iff hne).mpr hphase)
  obtain rfl := Option.some.inj (hv'.symm.trans hv)
  have hqueued := hs.basic.queued hne
  rw [if_pos hpending, Nat.add_zero] at hqueued
  rw [hs.output.protectedSent, hqueued] at hat
  exact ⟨a, ha, hat⟩

/-- A direction with a nonce left can seal. -/
theorem counterAvailable_of_at {keys : AeadKeys} {n : Nat} (ha : a.At keys n)
    (h : counterOf keys.iv + n + 1 < 2 ^ 64) : a.counterAvailable = true := by
  rw [counterAvailable, bne_iff_ne, ha.counter]
  omega

/-- Where the direction can seal, sending a protected packet queues it. -/
theorem sendProtected_ok (hseal : C.SealTotal) (ha : s.sendAead = some a) (hcan : CanSeal a payload)
    (hsent : s.protectedSent + 1 < 2 ^ 32) (hseq : s.sendSeq + 1 < 2 ^ 32) :
    ∃ padding wire, sendProtected C payload s =
      .ok (.ok (), s.queueSealed a (a.advance hcan.1) payload wire padding) := by
  rcases sendProtected_cases C ha hsent hseq with
    ⟨havail, padding, wire, -, heq⟩ | ⟨e, padding, junk, hjunk, -⟩
  · exact ⟨padding, wire, heq⟩
  · exact absurd hcan (hjunk hseal).2

/-- The server `NEWKEYS` is accepted if our `SERVICE_REQUEST` can be sealed. -/
theorem onServerNewkeys_eq {m : NewKeys} {keys : KeySet} (hm : NewKeys.decode payload = .ok m)
    (hkeys : s.keys = some keys) (hseal : C.SealTotal) (ha : s.sendAead = some a)
    (hcan : CanSeal a u.serviceRequest) (hsent : s.protectedSent + 1 < 2 ^ 32)
    (hseq : s.sendSeq + 1 < 2 ^ 32) :
    ∃ padding wire, onServerNewkeys C u payload s =
      .ok ((s.protect keys).queueSealed a (a.advance hcan.1) u.serviceRequest wire padding) := by
  have hlen := length_serviceRequest u
  have hshort : u.config.service.length < 2 ^ 32 := by
    have := hcan.2
    omega
  obtain ⟨padding, wire, hsend⟩ := sendProtected_ok (s := s.protect keys) hseal ha hcan hsent hseq
  refine ⟨padding, wire, ?_⟩
  rw [onServerNewkeys_decoded hm hkeys hshort, hsend]
  rfl

/-- **The server `NEWKEYS`** leads to the wait for protected packets. -/
theorem Stage.newKeys {m : NewKeys} (h : Stage C u .serverNewKeys packets bytes k s)
    (hp : Affordable u packets bytes (p :: ps))
    (hm : NewKeys.decode p.payload = .ok m) (hseal : C.SealTotal) (hv : k.verified = some v)
    (hrequest : u.config.service.length + 6 +
      paddingFor (u.config.service.length + 6) < 2 ^ 32)
    (hnonces : counterOf (v.sendKeys C).iv + 2 < 2 ^ 64) (rest : Bytes) :
    Leads C u policy s (p.frame ++ rest) (ServiceStage C u v 0) rest := by
  have hverified : s.hist.verified = some v := (congrArg Known.verified h.known_eq).trans hv
  have hphase : (s.receive p).phase = .serverNewKeys := h.phase_eq
  obtain ⟨a, ha, hat⟩ := h.sound.sendAead_at h.idle.outcome h.idle.pendingOutcome
    (.inl h.phase_eq) hverified
  rw [h.phase_eq] at hat
  have hcan : CanSeal a u.serviceRequest := by
    refine ⟨counterAvailable_of_at hat (by simp only [Phase.queued]; omega), ?_⟩
    rw [length_serviceRequest, Nat.add_comm (1 + 4)]
    exact hrequest
  obtain ⟨padding, wire, hrun⟩ := onServerNewkeys_eq (C := C) (u := u) (s := s.receive p) hm
    (h.sound.verification.keys (.inr h.phase_eq) v hverified) hseal ha hcan
    h.sound.basic.protectedSent_lt h.sound.basic.sendSeq_lt
  have hhandled : handleUnprotected C u p.payload (s.receive p) = .ok (((s.receive p).protect
      (keysOf C v.secret v.hash)).queueSealed a (a.advance hcan.1) u.serviceRequest wire
        padding) := by
    rw [handleUnprotected_kex (.inr hphase) (head_of_decode hm), handleKexMessage, if_neg, if_neg,
      if_pos]
    · exact hrun
    · rw [hphase]
      rfl
    · rw [hphase]
      decide
    · rw [hphase]
      simp
  have hkex : s.phase.isKex = true := by
    rw [h.phase_eq]
    rfl
  obtain ⟨haccepted, hauthenticated⟩ :=
    h.sound.sequence.unprotected (h.sound.basic.unreceived hkex)
  exact h.go rfl hp hhandled fun hs' => leads_service hs' h.idle.outcome h.idle.pendingOutcome rfl
    hverified (congrArg List.length haccepted) (congrArg List.length hauthenticated) rest

/-- A packet sealed at an index is one the direction at that index would seal. -/
theorem SealedAt.sealedBy {keys : AeadKeys} {n : Nat} (h : SealedAt C keys n nonce payload wire)
    (ha : a.At keys n) : SealedBy C a payload wire := by
  obtain ⟨-, _, ha', hsealed⟩ := h
  rw [SealedBy, ha'.key, ha'.nextNonce_eq] at hsealed
  rw [SealedBy, ha.key, ha.nextNonce_eq]
  exact hsealed

/-- The state in which a protected packet is handled: it was opened, accepted and counted. -/
def State.receiveSealed (a a' : AeadDirection) (payload : Bytes) (s : State) : State :=
  ((s.takeOpened a a' payload).accept payload).count

/-- What a list of protected packets must satisfy, from an index on. -/
structure SealedFrom (C : Crypto) (u : Setup) (v : Verified) (received : Nat)
    (ps : List SealedPacket) : Prop where
  sealed : ∀ i p, ps[i]? = some p → SealedAt C (v.receiveKeys C) (received + i)
    (nonceAt (v.receiveKeys C) (received + i)) p.payload p.wire
  length : ∀ p ∈ ps, p.wire.length ≤ lengthLen + u.config.packet.maxPacketLength.toNat + tagLen
  count : received + ps.length ≤ u.config.maxProtectedPackets.toNat
  nonces : counterOf (v.receiveKeys C).iv + received + ps.length < 2 ^ 64

variable {q : SealedPacket} {ps qs : List SealedPacket}

theorem SealedFrom.tail (h : SealedFrom C u v received (q :: qs)) :
    SealedFrom C u v (received + 1) qs where
  sealed i p hp := by
    have := h.sealed (i + 1) p hp
    rwa [show received + (i + 1) = received + 1 + i by omega] at this
  length p hp := h.length p (mem_cons_of_mem _ hp)
  count := by
    have := h.count
    rw [length_cons] at this
    omega
  nonces := by
    have := h.nonces
    rw [length_cons] at this
    omega

/-- In a sequence of sealed packets, those behind the first ones are sealed under the later
nonces. -/
theorem SealedFrom.right (h : SealedFrom C u v received (ps ++ qs)) :
    SealedFrom C u v (received + ps.length) qs := by
  induction ps generalizing received with
  | nil => exact h
  | cons p ps ih =>
    rw [length_cons, Nat.add_comm ps.length, ← Nat.add_assoc]
    exact ih h.tail

/-- **One protected packet**: sealed in order and within the budgets, it is opened, and either it is
handled or the counter of protected packets overflows. -/
theorem ServiceStage.turn_sealed (policy : HostIdentityOwned → TrustDecision)
    (h : ServiceStage C u v received s) (hlaw : C.OpensSealed)
    (hq : SealedFrom C u v received (q :: qs)) (rest : Bytes) :
    ∃ a a', ∀ output, turn C u policy (s, output) (q.wire ++ rest) =
      if received + 1 < 2 ^ 32 then
        answerRound C u policy output
          ((fun s' => (none, s', InputBuffer.full rest)) <$>
            handleProtected C u q.payload (s.receiveSealed a a' q.payload))
      else .stop (.panicked .overflow) := by
  have hbudget := hq.count
  have hnonce := hq.nonces
  rw [length_cons] at hbudget hnonce
  obtain ⟨_, a, hv', ha, hat, -⟩ := h.sound.sequence.receiving
    ((h.sound.basic.received_iff (by rw [h.phase_eq]; decide)).mpr h.phase_eq)
  obtain rfl := Option.some.inj (hv'.symm.trans h.verified_eq)
  rw [h.authenticated_eq] at hat
  have havail := counterAvailable_of_at hat (by omega)
  have hreceived : s.protectedReceived = received :=
    h.sound.sequence.protectedReceived_eq.trans h.accepted_eq
  obtain ⟨buf, hopen, hdrop⟩ := openDecision_sealed hlaw havail
    ((hq.sealed 0 q rfl).sealedBy hat) (hq.length q mem_cons_self) rest
  refine ⟨a, a.advance havail, fun output => ?_⟩
  have hlen := length_openDecision C a (q.wire ++ rest) u.config.packet
  rw [hopen] at hlen
  obtain ⟨c, hc⟩ : ∃ c, (InputBuffer.full (q.wire ++ rest)).overwriteWith buf = .ok c :=
    ⟨_, dif_pos hlen⟩
  have hcbuf : c.buf = buf := (overwriteWith_ok_iff.mp hc).2.1
  obtain ⟨c₂, hc₂, hrest⟩ : ∃ c₂, c.consume q.wire.length = .ok c₂ ∧ c₂.buf = rest := by
    refine ⟨_, if_pos ?_, ?_⟩
    · rw [hcbuf]
      change buf.length = (q.wire ++ rest).length at hlen
      rw [hlen, length_append]
      omega
    · change c.buf.drop q.wire.length = rest
      rw [hcbuf, hdrop]
  have hround : round C u s (.full (q.wire ++ rest)) =
      ofFlow <$> stepProtected C u s (.full (q.wire ++ rest)) := by
    rw [round, h.idle.outcome, h.idle.pendingOutcome, h.phase_eq]
    simp only [h.idle.out, ne_eq, not_true_eq_false, if_false]
  have hopen' : openDecision C a (InputBuffer.full (q.wire ++ rest)).buf
      u.config.packet = ⟨.ok (.packet q.payload q.wire.length), a.advance havail, buf⟩ := hopen
  rw [turn, hround, stepProtected, ha, expect_some, ok_bind,
    openPacket_eq, hopen', ok_bind]
  simp only
  rw [hc, ok_bind, recordOpening_advance, stepOpened]
  simp only [hc₂, ok_bind]
  change answerRound C u policy output (ofFlow <$> if
    u.config.maxProtectedPackets.toNat ≤ s.protectedReceived then _ else
      add (2 ^ 32) s.protectedReceived 1 >>= _) = _
  rw [hreceived, if_neg (by omega)]
  by_cases hroom : received + 1 < 2 ^ 32
  swap
  · rw [if_neg hroom, add, if_neg hroom]
    rfl
  rw [if_pos hroom, add_ok hroom, ok_bind]
  rw [← hreceived]
  refine (congrArg (fun x => answerRound C u policy output (ofFlow <$> x))
    (counted_goes (by exact h.sound.basic.not_wraps_service h.phase_eq))).trans ?_
  change answerRound C u policy output (ofFlow <$>
    (handleProtected C u q.payload (s.receiveSealed a (a.advance havail) q.payload) >>= _)) = _
  cases handleProtected C u q.payload (s.receiveSealed a (a.advance havail) q.payload) with
  | error => rfl
  | ok s' => exact congrArg (Turn.go (s', output)) hrest

/-- `s'` is `s` with something noted for the report. -/
structure Noted (s s' : State) : Prop where
  outcome : s'.outcome = s.outcome := by rfl
  pendingOutcome : s'.pendingOutcome = s.pendingOutcome := by rfl
  phase : s'.phase = s.phase := by rfl
  hist : s'.hist = s.hist := by rfl

/-- As protected packet `i` (from zero), this payload is noted and nothing else. -/
def Harmless (C : Crypto) (u : Setup) (i : Nat) (payload : Bytes) : Prop :=
  ∀ s : State, s.protectedReceived = i + 1 →
    ∃ s', handleProtected C u payload s = .ok s' ∧ Noted s s'

/-- An `IGNORE` or a `DEBUG` is harmless anywhere. -/
theorem harmless_of_ignoreOrDebug (h : IgnoreOrDebug payload) (i : Nat) :
    Harmless C u i payload := by
  intro s _
  obtain ⟨_, m, hhead, -, hnumber, hrecord⟩ := skip_of_skippable (.inl h)
  refine ⟨{ s with skipped := s.skipped ++ [m] }, ?_, {}⟩
  rw [handleProtected, hhead, ← hrecord s]
  rcases hnumber h with rfl | rfl <;> rfl

/-- A valid `EXT_INFO` is harmless as first packet. -/
theorem harmless_of_validExtInfo (h : ValidExtInfo u.config payload) : Harmless C u 0 payload := by
  intro s hfirst
  obtain ⟨_, hext, ⟨n, hvalid⟩, hlist⟩ := h
  have hrun : handleProtected C u payload s = .ok (onExtInfo u payload s) := by
    rw [handleProtected, head_of_decode hext]
    simp only
    rw [if_pos (by rw [hfirst]; rfl)]
    rfl
  refine ⟨_, hrun, ?_⟩
  rw [onExtInfo, hext]
  simp only [hvalid]
  split
  · exact {}
  · exact {}
  · rename_i e he
    exact absurd he (hlist e)

/-- One harmless packet leads to the wait for the next one. -/
theorem ServiceStage.harmless (h : ServiceStage C u v received s) (hlaw : C.OpensSealed)
    (hharmless : Harmless C u received q.payload) (hq : SealedFrom C u v received (q :: qs))
    (hroom : received + 1 < 2 ^ 32) (rest : Bytes) :
    Leads C u policy s (q.wire ++ rest) (ServiceStage C u v (received + 1)) rest := by
  obtain ⟨a, a', hturn⟩ := h.turn_sealed policy hlaw hq rest
  have hreceived : s.protectedReceived = received :=
    h.sound.sequence.protectedReceived_eq.trans h.accepted_eq
  obtain ⟨_, hrun, hnoted⟩ := hharmless (s.receiveSealed a a' q.payload)
    (congrArg (· + 1) hreceived)
  simp only [if_pos hroom, hrun] at hturn
  refine .go h.sound hturn fun hs' => leads_service hs' (hnoted.outcome.trans h.idle.outcome)
    (hnoted.pendingOutcome.trans h.idle.pendingOutcome) (hnoted.phase.trans h.phase_eq) ?_ ?_ ?_
    rest
  · rw [hnoted.hist]
    exact h.verified_eq
  · rw [hnoted.hist]
    change (s.hist.accepted ++ [q.payload]).length = received + 1
    rw [length_append, h.accepted_eq, length_singleton]
  · rw [hnoted.hist]
    change (s.hist.authenticated ++ [a.nextNonce]).length = received + 1
    rw [length_append, h.authenticated_eq, length_singleton]

/-- **Harmless packets** are received one after the other. -/
theorem ServiceStage.run (h : ServiceStage C u v received s) (hlaw : C.OpensSealed)
    (hps : SealedFrom C u v received (ps ++ qs))
    (hharmless : ∀ i p, ps[i]? = some p → Harmless C u (received + i) p.payload)
    (hroom : received + ps.length < 2 ^ 32) (rest : Bytes) :
    Leads C u policy s (ps.flatMap SealedPacket.wire ++ rest)
      (ServiceStage C u v (received + ps.length)) rest := by
  induction ps generalizing s received with
  | nil => exact .refl h
  | cons p ps ih =>
    rw [length_cons] at hroom ⊢
    rw [flatMap_cons, append_assoc]
    refine (h.harmless hlaw (hharmless 0 p rfl) hps (by omega) _).trans fun s₁ h₁ => ?_
    have hrest := ih h₁ hps.tail (fun i q hq => by
      have := hharmless (i + 1) q hq
      rwa [show received + (i + 1) = received + 1 + i by omega] at this) (by omega)
    rwa [show received + 1 + ps.length = received + (ps.length + 1) by omega] at hrest

/-- The `SERVICE_ACCEPT` we asked for queues our `DISCONNECT`, if that can be sealed. -/
theorem handleProtected_accept
    (hdec : ServiceAccept.decode payload = .ok { serviceName := u.config.service })
    (hseal : C.SealTotal) (ha : s.sendAead = some a)
    (hcan : CanSeal a (disconnectPayload completeDescription))
    (hsent : s.protectedSent + 1 < 2 ^ 32) (hseq : s.sendSeq + 1 < 2 ^ 32) :
    ∃ s', handleProtected C u payload s = .ok s' ∧ s'.outcome = s.outcome ∧
      s'.pendingOutcome = some .completed := by
  obtain ⟨_, _, hsend⟩ := sendProtected_ok
    (s := { s with serviceAccepted := some (fromUtf8Lossy u.config.service) }) hseal ha hcan hsent
    hseq
  have hrun : handleProtected C u payload s = onServiceAccept C u payload s := by
    rw [handleProtected, head_of_decode hdec]
    rfl
  rw [hrun, onServiceAccept, hdec]
  simp only [ne_eq, not_true_eq_false, if_false]
  rw [disconnectThen, sendDisconnect_eq C length_description_lt.1, hsend, ok_bind]
  exact ⟨_, rfl, rfl, rfl⟩

/-- A queued outcome is adopted once the output is sent. -/
theorem whole_of_pending {o : HandshakeOutcome} (hnone : s.outcome = none)
    (hpending : s.pendingOutcome = some o) (output w : Bytes) :
    ∃ s₁ output₁,
      Whole (turn C u policy) (turnEnded u) (s, output) w (conclude u o s₁ output₁) := by
  have hadopt (s : State) (output : Bytes) (hnone : s.outcome = none) (hout : s.out = [])
      (hpending : s.pendingOutcome = some o) :
      Whole (turn C u policy) (turnEnded u) (s, output) w (conclude u o (s.finish o) output) := by
    refine .go (show _ = Turn.go (s.finish o, output) w from ?_) (.stop ?_)
    · have hround : round C u s (.full w) = .ok (none, s.finish o, .full w) := by
        rw [round, hnone, hpending]
        simp only [hout, ne_eq, not_true_eq_false, if_false]
        rfl
      rw [turn, hround]
      rfl
    · rfl
  by_cases hout : s.out = []
  · exact ⟨_, _, hadopt s output hnone hout hpending⟩
  · exact ⟨_, _, .go (turn_send hnone hout w) (hadopt _ _ hnone rfl hpending)⟩

/-- **The `SERVICE_ACCEPT`** completes the handshake. -/
theorem ServiceStage.accept (h : ServiceStage C u v received s) (hlaw : C.OpensSealed)
    (hseal : C.SealTotal)
    (hdec : ServiceAccept.decode q.payload = .ok { serviceName := u.config.service })
    (hq : SealedFrom C u v received (q :: qs)) (hroom : received + 1 < 2 ^ 32)
    (hnonces : counterOf (v.sendKeys C).iv + 2 < 2 ^ 64) (output rest : Bytes) :
    ∃ s₁ output₁, Whole (turn C u policy) (turnEnded u) (s, output) (q.wire ++ rest)
      (conclude u .completed s₁ output₁) := by
  obtain ⟨a, a', hturn⟩ := h.turn_sealed policy hlaw hq rest
  obtain ⟨b, hb, hat⟩ := h.sound.sendAead_at h.idle.outcome h.idle.pendingOutcome
    (.inr h.phase_eq) h.verified_eq
  rw [h.phase_eq] at hat
  have hcan : CanSeal b (disconnectPayload completeDescription) :=
    ⟨counterAvailable_of_at hat (by simp only [Phase.queued]; omega), by decide⟩
  obtain ⟨_, hrun, hnone, hpending⟩ := handleProtected_accept (C := C) (u := u)
    (s := s.receiveSealed a a' q.payload) hdec hseal hb hcan h.sound.basic.protectedSent_lt
    h.sound.basic.sendSeq_lt
  simp only [if_pos hroom, hrun] at hturn
  obtain ⟨s₁, output₁, hwhole⟩ := whole_of_pending (C := C) (u := u)
    (hnone.trans h.idle.outcome) hpending output rest
  exact ⟨s₁, output₁, .go (hturn output) hwhole⟩

/-! ### The lines -/

/-- The machine reads lines, and has seen so many prelude lines and bytes. -/
structure LineStage (C : Crypto) (u : Setup) (lines bytes : Nat) (k : Known) (s : State) : Prop
    extends Stage C u .serverIdentification 0 0 k s where
  reader_eq : s.identReader = ⟨u.config.ident, lines, bytes⟩

variable {lines : Nat}

/-- The line is looked for in all the bytes there are. -/
theorem LineStage.feed_eq (h : LineStage C u lines bytes k s) (w : Bytes) :
    s.identReader.feed (InputBuffer.full w).buf =
      IdentificationReader.feed ⟨u.config.ident, lines, bytes⟩ w := by
  rw [h.reader_eq]
  rfl

/-- **A prelude line** is noted. -/
theorem LineStage.prelude {content : Bytes} (h : LineStage C u lines bytes k s)
    (hlf : 0x0a ∉ content) (hssh : ¬Ident.sshDash <+: content)
    (hline : content.length + 1 ≤ u.config.ident.maxPreludeLine.toNat)
    (hlines : lines < u.config.ident.maxPreludeLines.toNat)
    (hbytes : bytes + (content.length + 1) ≤ u.config.ident.maxPreludeBytes.toNat)
    (rest : Bytes) :
    Leads C u policy s (content ++ 0x0a :: rest)
      (LineStage C u (lines + 1) (bytes + (content.length + 1)) k) rest := by
  obtain ⟨line, t, hfeed⟩ := IdentificationReader.feed_prelude
    (r := ⟨u.config.ident, lines, bytes⟩) hlf hssh hline hlines hbytes rest
  obtain ⟨b, hconsume, hrest⟩ := consume_full (content ++ [0x0a]) rest
  rw [append_assoc, length_append, singleton_append, length_singleton]
    at hconsume
  have hturn (output : Bytes) : turn C u policy (s, output) (content ++ 0x0a :: rest) =
      .go ({ s with
        identReader := ⟨u.config.ident, lines + 1, bytes + (content.length + 1)⟩,
        preludeLines := s.preludeLines ++ [line] }, output) rest := by
    rw [turn, round_of_line h.idle h.phase_eq, stepIdentification, h.feed_eq, hfeed]
    simp only [hconsume, ok_bind]
    exact congrArg (Turn.go _) hrest
  refine .go h.sound hturn fun hs' => .refl ⟨⟨hs', { h.idle with }, h.phase_eq, h.packets_eq,
    h.bytes_eq, ?_⟩, rfl⟩
  rw [← h.known_eq]
  rfl

/-- **The identification line** leads to the wait for the server's `KEXINIT`. -/
theorem LineStage.identification {line : Bytes} {t : LineTerminator} {ident : Identification}
    (h : LineStage C u lines bytes k s) (hparse : parseIdentification line t = .ok ident)
    (hline : line.length + t.byteLen ≤ u.config.ident.maxIdentificationLine.toNat)
    (rest : Bytes) :
    Leads C u policy s (line ++ (t.bytes ++ rest))
      (Stage C u .serverKexInit 0 0 { k with serverIdent := some ident.toOwned }) rest := by
  have hfeed := IdentificationReader.feed_identification (r := ⟨u.config.ident, lines, bytes⟩)
    hparse hline rest
  have hlen : t.bytes.length = t.byteLen := by cases t <;> rfl
  obtain ⟨b, hconsume, hrest⟩ := consume_full (line ++ t.bytes) rest
  rw [append_assoc, length_append, hlen] at hconsume
  have hturn (output : Bytes) : turn C u policy (s, output) (line ++ (t.bytes ++ rest)) =
      .go ({ s with
        identReader := ⟨u.config.ident, lines, bytes⟩, serverIdent := some ident.toOwned,
        phase := .serverKexInit,
        hist := { s.hist with
          identLine := some ((line ++ (t.bytes ++ rest)).take (line.length + t.byteLen)) } },
        output) rest := by
    rw [turn, round_of_line h.idle h.phase_eq, stepIdentification, h.feed_eq, hfeed]
    simp only [hconsume, ok_bind]
    exact congrArg (Turn.go _) hrest
  refine .go h.sound hturn fun hs' => .refl ⟨hs', { h.idle with }, rfl, h.packets_eq,
    h.bytes_eq, ?_⟩
  rw [← h.known_eq]
  rfl

/-- The prelude lines are read one after the other. -/
theorem LineStage.preludes {contents : List Bytes} (h : LineStage C u lines bytes k s)
    (hlegal : ∀ content ∈ contents, 0x0a ∉ content ∧ ¬Ident.sshDash <+: content ∧
      content.length + 1 ≤ u.config.ident.maxPreludeLine.toNat)
    (hcount : lines + contents.length ≤ u.config.ident.maxPreludeLines.toNat)
    (hbytes : bytes + (contents.flatMap (· ++ [0x0a])).length ≤
      u.config.ident.maxPreludeBytes.toNat) (rest : Bytes) :
    Leads C u policy s (contents.flatMap (· ++ [0x0a]) ++ rest)
      (fun s' => ∃ lines bytes, LineStage C u lines bytes k s') rest := by
  induction contents generalizing s lines bytes with
  | nil => exact .refl ⟨lines, bytes, h⟩
  | cons content _ ih =>
    obtain ⟨hlf, hssh, hline⟩ := hlegal content mem_cons_self
    rw [flatMap_cons, length_append, length_append, length_singleton] at hbytes
    rw [length_cons] at hcount
    rw [flatMap_cons, append_assoc, append_assoc, singleton_append]
    refine (h.prelude hlf hssh hline (by omega) (by omega) _).trans fun s₁ h₁ => ?_
    exact ih h₁ (fun c hc => hlegal c (mem_cons_of_mem _ hc)) (by omega) (by omega)

end Stages

/-! ### The whole script -/

section Script

variable {C : Crypto} {config : HandshakeConfig} {provider : Option SignatureProvider}
  {h : ClientHandshake} {policy : HostIdentityOwned → TrustDecision} {script : ServerScript}
  {n : Negotiated} {v : Verified} {s : State} {k : Known}

/-- Once its first output is sent, a machine reads lines. -/
theorem Built.leads_lines (hb : Built C config provider h) (w : Bytes) :
    Leads C h.setup policy h.state w (LineStage C h.setup 0 0 h.state.known) w := by
  have hsound := hb.sound
  obtain ⟨_, _, _, _, _, -, -, -, -, hstate⟩ := hb.start
  have hreader : h.state.identReader = ⟨h.setup.config.ident, 0, 0⟩ := by
    rw [hstate, hb.config_eq]
    rfl
  have hnone : h.state.outcome = none ∧ h.state.pendingOutcome = none ∧
      h.state.phase = .serverIdentification ∧ h.state.preKexPackets = 0 ∧
      h.state.preKexBytes = 0 := by
    rw [hstate]
    exact ⟨rfl, rfl, rfl, rfl, rfl⟩
  obtain ⟨hout, hpending, hphase, hpackets, hbytes⟩ := hnone
  refine leads_sent hsound hout hpending ?_
  rintro t ht hidle ⟨out, taken, rfl⟩
  exact ⟨⟨ht, hidle, hphase, hpackets, hbytes, rfl⟩, hreader⟩

/-- The reply of an honest script is accepted where the key exchange is known. -/
theorem ServerScript.Agrees.accepts (ha : script.Agrees C h n v) {i : OwnedIdentification}
    (hn : s.negotiated = some n) (he : s.ephemeral = h.state.ephemeral)
    (hi : s.serverIdent = some i) (hline : i.line = script.line)
    (hiS : s.iS = some script.kexInit.payload) :
    Accepts C h.setup s script.reply.payload v where
  decoded := ha.reply
  key := ha.hostKey
  scheme := ⟨n, hn, ha.scheme⟩
  keyType := ha.keyType
  agreed := by
    obtain ⟨e, qS, heph, hqS, hdh, hne⟩ := ha.shared
    refine ⟨e, he.trans heph, ?_⟩
    rw [EphemeralKeyPair.agree, ByteVec.ofBytes?_eq_some_iff.mpr hqS.symm]
    simp only [hdh]
    rw [if_neg hne]
  vC := clientIdentificationLine_of_eq ha.vC
  vS := ⟨i, hi, ha.vS.trans hline.symm⟩
  iC := ha.iC
  iS := by rw [hiS, ha.iS]
  kS := ha.kS
  qC := ha.qC
  qS := ha.qS
  hash := ha.hash
  signature := ha.signature
  verified := ha.verified

/-- The wrongly guessed packet is there if the guess was wrong, and is dropped. -/
theorem ServerScript.LegalPackets.leads_guess {packets bytes : Nat}
    (hp : script.LegalPackets h.setup.config n)
    (hs : Stage C h.setup .ecdhReply packets bytes k s) (hn : k.negotiated = some n)
    (hguess : k.guessDiscarded = false)
    (hafford : Affordable h.setup packets bytes script.guess.toList) (rest : Bytes) :
    Leads C h.setup policy s (script.guess.toList.flatMap Packet.frame ++ rest)
      (Stage C h.setup .ecdhReply (packets + script.guess.toList.length)
        (bytes + (script.guess.toList.flatMap Packet.frame).length)
        { k with guessDiscarded := n.serverGuessWrong }) rest := by
  cases hcase : script.guess with
  | none =>
    have hright : n.serverGuessWrong = false := by
      rw [Bool.eq_false_iff, ne_eq, ← hp.guess_iff, hcase]
      decide
    refine .refl ?_
    rw [hright, ← hguess]
    exact hs
  | some p =>
    have hwrong : n.serverGuessWrong = true := hp.guess_iff.mp (by rw [hcase]; rfl)
    obtain ⟨_, hhead, hspecific⟩ := hp.guess p hcase
    rw [hcase] at hafford
    simp only [Option.toList_some, length_singleton, flatMap_singleton]
    rw [hwrong]
    exact hs.guess hafford hhead hspecific hn hwrong hguess rest

/-- **The key exchange of an honest script** leads to the wait for protected packets. -/
theorem ServerScript.Honest.exchange (hh : script.Honest C h n v) (hseal : C.SealTotal)
    (hpolicy : ∀ identity, ∃ source, policy identity = .trusted source)
    {i : OwnedIdentification} (hi : k.serverIdent = some i) (hline : i.line = script.line)
    (he : k.ephemeral = h.state.ephemeral) (hguess : k.guessDiscarded = false)
    (hs : Stage C h.setup .serverKexInit 0 0 k s) (rest : Bytes) :
    Leads C h.setup policy s (script.packets.flatMap Packet.frame ++ rest)
      (ServiceStage C h.setup v 0) rest := by
  obtain ⟨_, _, hclient, hserver, hneg⟩ := hh.agrees.negotiated
  obtain ⟨m, hm⟩ := hh.packets.newKeys
  have hstrict : n.strictKex.negotiated = false ∨ script.skips = [] := by
    cases hcase : n.strictKex.negotiated with
    | true => exact .inr (hh.packets.strict hcase)
    | false => exact .inl rfl
  have hskips := hh.packets.skips
  simp only [ServerScript.skips, mem_append, append_eq_nil_iff] at hskips hstrict
  have hp₀ : Affordable h.setup 0 0 script.packets :=
    ⟨hh.packets.legal, by rw [Nat.zero_add]; exact hh.packets.count,
      by rw [Nat.zero_add]; exact hh.packets.bytes⟩
  rw [ServerScript.packets] at hp₀ ⊢
  obtain ⟨hq₀, hp₁⟩ := hp₀.split
  obtain ⟨hq₂, hp₃⟩ := hp₁.tail.split
  obtain ⟨hq₃, hp₄⟩ := hp₃.split
  obtain ⟨hq₄, hp₅⟩ := hp₄.split
  obtain ⟨hq₆, hp₇⟩ := hp₅.tail.split
  simp only [flatMap_append, flatMap_cons, flatMap_nil, append_assoc,
    nil_append]
  refine (hs.skips rfl (.inr (.inl rfl)) (fun p hp => hskips p (.inl (.inl (.inl hp)))) hq₀
    _).trans fun s₁ h₁ => ?_
  refine (h₁.kexInit hp₁ hclient hserver hneg (fun hyes => ?_) _).trans fun s₂ h₂ => ?_
  · rcases hstrict with hno | hempty
    · exact absurd (hyes.symm.trans hno) (by decide)
    · rw [hempty.1.1.1]
      rfl
  refine (h₂.skips rfl (hstrict.symm.imp (·.1.1.2) .inr)
    (fun p hp => hskips p (.inl (.inl (.inr hp)))) hq₂ _).trans fun s₃ h₃ => ?_
  refine (hh.packets.leads_guess h₃ rfl hguess hq₃ _).trans fun s₄ h₄ => ?_
  refine (h₄.skips rfl (hstrict.symm.imp (·.1.2) .inr) (fun p hp => hskips p (.inl (.inr hp)))
    hq₄ _).trans fun s₅ h₅ => ?_
  have haccepts : Accepts C h.setup s₅ script.reply.payload v :=
    hh.agrees.accepts (congrArg Known.negotiated h₅.known_eq)
      ((congrArg Known.ephemeral h₅.known_eq).trans he)
      ((congrArg Known.serverIdent h₅.known_eq).trans hi) hline
      (congrArg Known.iS h₅.known_eq)
  refine (h₅.reply hp₅ (fun n' hn' hwrong => ?_) haccepts _).trans fun s₆ h₆ => ?_
  · rw [Option.some.inj hn']
    exact hwrong
  refine (h₆.trust rfl hpolicy _).trans fun s₇ h₇ => ?_
  refine (h₇.skips rfl (hstrict.symm.imp (·.2) .inr) (fun p hp => hskips p (.inr hp)) hq₆
    _).trans fun s₈ h₈ => ?_
  exact h₈.newKeys hp₇ hm hseal rfl hh.protectedPackets.request hh.protectedPackets.ourNonces rest

/-- How a handshake with an honest server ends: completed, or with the counter of protected packets
overflown. -/
def ServerScript.Ends (script : ServerScript) (u : Setup) (r : Driven) : Prop :=
  if script.sealedPackets.length < 2 ^ 32 then ∃ s output, r = conclude u .completed s output
  else r = .panicked .overflow

/-- Every protected packet before the `SERVICE_ACCEPT` is harmless. -/
theorem ServerScript.LegalSealed.harmless (hl : script.LegalSealed C h.setup.config v) {i : Nat}
    {p : SealedPacket} (hp : script.sealedPackets[i]? = some p)
    (hi : i + 1 < script.sealedPackets.length) : Harmless C h.setup i p.payload := by
  rw [ServerScript.sealedPackets, length_append, length_singleton] at hi
  rw [ServerScript.sealedPackets, List.getElem?_append_left (by omega)] at hp
  cases hext : script.extInfo with
  | none =>
    rw [hext, Option.toList_none, nil_append] at hp
    exact harmless_of_ignoreOrDebug (hl.skips p (mem_of_getElem? hp)) i
  | some q =>
    rw [hext, Option.toList_some, singleton_append] at hp
    cases i with
    | zero =>
      obtain rfl := Option.some.inj hp
      exact harmless_of_validExtInfo (hl.extInfo q hext)
    | succ =>
      rw [List.getElem?_cons_succ] at hp
      exact harmless_of_ignoreOrDebug (hl.skips p (mem_of_getElem? hp)) _

/-- The protected packets of an honest script are sealed in order. -/
theorem ServerScript.LegalSealed.sealedFrom (hl : script.LegalSealed C h.setup.config v) :
    SealedFrom C h.setup v 0 script.sealedPackets where
  sealed i p hp := by
    rw [Nat.zero_add]
    exact hl.sealed i p hp
  length := hl.length
  count := by
    rw [Nat.zero_add]
    exact hl.count
  nonces := hl.nonces

/-- The first protected packets of an honest script are received one after the other, up to the
`SERVICE_ACCEPT` or to the overflow. -/
theorem ServerScript.LegalSealed.leads {ps rest : List SealedPacket} {q : SealedPacket}
    (policy : HostIdentityOwned → TrustDecision)
    (hl : script.LegalSealed C h.setup.config v) (hlaw : C.OpensSealed)
    (hsplit : script.sealedPackets = ps ++ q :: rest) (hroom : ps.length < 2 ^ 32)
    (hs : ServiceStage C h.setup v 0 s) :
    SealedFrom C h.setup v ps.length (q :: rest) ∧
      Leads C h.setup policy s (script.sealedPackets.flatMap SealedPacket.wire)
        (ServiceStage C h.setup v ps.length) (q.wire ++ rest.flatMap SealedPacket.wire) := by
  have hlen : script.sealedPackets.length = ps.length + (rest.length + 1) := by
    rw [hsplit, length_append, length_cons]
  have hfrom : SealedFrom C h.setup v 0 (ps ++ q :: rest) := hsplit ▸ hl.sealedFrom
  have hharmless (i : Nat) (p : SealedPacket) (hp : ps[i]? = some p) :
      Harmless C h.setup (0 + i) p.payload := by
    have hlt := (List.getElem?_eq_some_iff.mp hp).1
    rw [Nat.zero_add]
    refine hl.harmless ?_ (by omega)
    rw [hsplit, List.getElem?_append_left hlt]
    exact hp
  rw [hsplit, flatMap_append, flatMap_cons, ← Nat.zero_add ps.length]
  exact ⟨hfrom.right, hs.run hlaw hfrom hharmless (by omega) _⟩

/-- **The protected packets of an honest script** end the handshake. -/
theorem ServerScript.LegalSealed.whole (hl : script.LegalSealed C h.setup.config v)
    (hlaw : C.OpensSealed) (hseal : C.SealTotal) (hs : ServiceStage C h.setup v 0 s)
    (output : Bytes) :
    ∃ r, Whole (turn C h.setup policy) (turnEnded h.setup) (s, output)
      (script.sealedPackets.flatMap SealedPacket.wire) r ∧ script.Ends h.setup r := by
  by_cases hroom : script.sealedPackets.length < 2 ^ 32
  · -- every packet before the `SERVICE_ACCEPT` fits the counter, and so does that
    have hsplit : script.sealedPackets =
        (script.extInfo.toList ++ script.beforeAccept) ++ script.accept :: [] := rfl
    generalize hps : script.extInfo.toList ++ script.beforeAccept = ps at hsplit
    have hlen : script.sealedPackets.length = ps.length + 1 := by
      rw [hsplit, length_append, length_singleton]
    obtain ⟨hfrom, hleads⟩ := hl.leads policy hlaw hsplit (by omega) hs
    obtain ⟨⟨s₁, output₁⟩, h₁, hrun⟩ := hleads output
    obtain ⟨s₂, output₂, hwhole⟩ := h₁.accept hlaw hseal hl.accept hfrom (by omega) hl.ourNonces
      output₁ []
    refine ⟨_, hrun _ hwhole, ?_⟩
    rw [ServerScript.Ends, if_pos hroom]
    exact ⟨s₂, output₂, rfl⟩
  · -- the packet at index `2 ^ 32 - 1` is still opened, and then the counter overflows
    obtain ⟨ps, q, rest, hsplit, hps⟩ :=
      exists_eq_append_cons (show 2 ^ 32 - 1 < script.sealedPackets.length by omega)
    obtain ⟨hfrom, hleads⟩ := hl.leads policy hlaw hsplit (by omega) hs
    obtain ⟨⟨s₁, output₁⟩, h₁, hrun⟩ := hleads output
    obtain ⟨a, _, hturn⟩ := h₁.turn_sealed policy hlaw hfrom
      (rest.flatMap SealedPacket.wire)
    specialize hturn output₁
    rw [if_neg (by omega)] at hturn
    refine ⟨_, hrun _ (.stop hturn), ?_⟩
    rw [ServerScript.Ends, if_neg hroom]

/-- **The whole stream of an honest script**, given in one piece. -/
theorem ServerScript.Honest.whole (hh : script.Honest C h n v) (hb : Built C config provider h)
    (hlaw : C.OpensSealed) (hseal : C.SealTotal)
    (hpolicy : ∀ identity, ∃ source, policy identity = .trusted source) :
    ∃ r, Whole (turn C h.setup policy) (turnEnded h.setup) (h.state, []) script.stream r ∧
      script.Ends h.setup r := by
  obtain ⟨_, hident⟩ := hh.lines.identification
  have hstart : h.state.guessDiscarded = false := by
    obtain ⟨_, _, _, _, _, -, -, -, -, hstate⟩ := hb.start
    rw [hstate]
    rfl
  have hleads : Leads C h.setup policy h.state script.stream (ServiceStage C h.setup v 0)
      (script.sealedPackets.flatMap SealedPacket.wire) := by
    rw [ServerScript.stream, ServerScript.lines, append_assoc, append_assoc]
    refine (hb.leads_lines _).trans fun s₁ h₁ => ?_
    refine (h₁.preludes hh.lines.prelude (by rw [Nat.zero_add]; exact hh.lines.count)
      (by rw [Nat.zero_add]; exact hh.lines.bytes) _).trans ?_
    rintro s₂ ⟨lines, bytes, h₂⟩
    refine (h₂.identification hident hh.lines.length _).trans fun s₃ h₃ => ?_
    exact hh.exchange hseal hpolicy rfl (parseIdentification_ok hident).1 rfl hstart h₃ _
  obtain ⟨⟨s₁, output₁⟩, h₁, hrun⟩ := hleads []
  obtain ⟨r, hwhole, hr⟩ := hh.protectedPackets.whole hlaw hseal h₁ output₁
  exact ⟨r, hrun r hwhole, hr⟩

end Script

section Complete

variable {C : Crypto} {ρ ε : Type} {tryFillBytes : (n : Nat) → ρ → Except ε (ByteVec n × ρ)}
  {config : HandshakeConfig} {rng : ρ} {provider : Option SignatureProvider} {h : ClientHandshake}
  {policy : HostIdentityOwned → TrustDecision} {script : ServerScript} {n : Negotiated}
  {v : Verified} {chunks : List Bytes}

/-- **How a client driven on an honest stream ends.** -/
theorem ServerScript.Honest.driven (hh : script.Honest C h n v) (hb : Built C config provider h)
    (hlaw : C.OpensSealed) (hseal : C.SealTotal)
    (hpolicy : ∀ identity, ∃ source, policy identity = .trusted source)
    (hstream : chunks.flatten = script.stream) (hfit : h.driven C policy chunks ≠ .badChunk) :
    script.Ends h.setup (h.driven C policy chunks) := by
  obtain ⟨_, hident⟩ := hh.lines.identification
  have hline : 4 ≤ config.ident.maxLine := by
    have hssh := congrArg List.length (parseIdentification_ok hident).2.2
    have hlength := hh.lines.length
    rw [hb.config_eq] at hlength
    rw [length_take] at hssh
    change min 4 _ = 4 at hssh
    exact Nat.le_trans (by omega) (Nat.le_max_right _ _)
  obtain ⟨r, hwhole, hr⟩ := hh.whole hb hlaw hseal hpolicy
  have hdriven := hb.driven_whole hline hfit
  rw [hstream] at hdriven
  rw [hdriven.unique hwhole]
  exact hr

/-- **Completeness against an honest server.** A client that trusts the host key and is driven on
what an honest server sends, however the stream is cut, completes exactly if the server sends fewer
than `2 ^ 32` protected packets. -/
theorem honest_completes_iff (hlaw : C.OpensSealed) (hseal : C.SealTotal)
    (hb : build C tryFillBytes config rng provider = .ok (.ok h)) (hh : script.Honest C h n v)
    (hpolicy : ∀ identity, ∃ source, policy identity = .trusted source)
    (hstream : chunks.flatten = script.stream) (hfit : h.driven C policy chunks ≠ .badChunk) :
    (∃ report output, h.driven C policy chunks = .done .completed report output) ↔
      script.sealedPackets.length < 2 ^ 32 := by
  have hend := hh.driven (build_ok hb) hlaw hseal hpolicy hstream hfit
  rw [ServerScript.Ends] at hend
  by_cases hroom : script.sealedPackets.length < 2 ^ 32
  · rw [if_pos hroom] at hend
    obtain ⟨_, _, hend⟩ := hend
    rw [hend, conclude, report, clientIdentificationLine_of_eq hh.agrees.vC, ok_bind]
    exact ⟨fun _ => hroom, fun _ => ⟨_, _, rfl⟩⟩
  · rw [if_neg hroom] at hend
    refine ⟨?_, fun hlt => absurd hlt hroom⟩
    rintro ⟨_, _, hdone⟩
    rw [hend] at hdone
    cases hdone

end Complete

/-! ### The reference exchange -/

namespace Reference

/-- The bytes of the server, each on its own. -/
def bytes (k : Nat) : List Bytes := (script k).stream.map ([·])

/-- The bytes on their own make up the stream. -/
theorem flatten_bytes (k : Nat) : (bytes k).flatten = (script k).stream := by
  rw [bytes, ← flatMap_def, flatMap_singleton']

/-- The bytes on their own never overflow the client's buffer. -/
theorem driven_bytes_ne_badChunk (k : Nat) (policy : HostIdentityOwned → TrustDecision) :
    client.driven reference policy (bytes k) ≠ .badChunk := by
  have hflow := (build_ok build_client).flowControl
    (show config.bufferCapacity = .ok 66580 by decide)
  refine hflow.drive_bytes .nil fun chunk hchunk => ?_
  obtain ⟨b, -, rfl⟩ := mem_map.mp hchunk
  rfl

/-- A server that uses up a budget of `2 ^ 32` protected packets overflows the counter. -/
theorem driven_panics {k : Nat} (hk : k < 2 ^ 32) (hmany : 2 ^ 32 ≤ k + 1)
    {policy : HostIdentityOwned → TrustDecision}
    (hpolicy : ∀ identity, ∃ source, policy identity = .trusted source) :
    client.driven reference policy (bytes k) = .panicked .overflow := by
  have hend := (honest hk).driven (build_ok build_client) reference_opensSealed
    reference_sealTotal hpolicy (flatten_bytes k) (driven_bytes_ne_badChunk k policy)
  rw [ServerScript.Ends, length_sealedPackets, if_neg (by omega)] at hend
  exact hend

end Reference

/-- The reference handshake completes. -/
theorem honest_completes_iff_reference :
    ∃ report output, client.driven reference (fun _ => .trusted .pinnedFingerprint)
      (bytes 0) = .done .completed report output :=
  (honest_completes_iff reference_opensSealed reference_sealTotal build_client
    (honest (show 0 < 2 ^ 32 by decide)) (fun _ => ⟨_, rfl⟩) (flatten_bytes 0)
    (driven_bytes_ne_badChunk 0 _)).mpr
    (by rw [length_sealedPackets]; decide)

/-- On `2 ^ 32` protected packets of an honest server, as many as its budget, the client panics. -/
theorem honest_server_overflows :
    (script (2 ^ 32 - 1)).Honest reference client negotiated
      verified ∧
    (script (2 ^ 32 - 1)).sealedPackets.length ≤
      client.setup.config.maxProtectedPackets.toNat ∧
    (bytes (2 ^ 32 - 1)).flatten = (script (2 ^ 32 - 1)).stream ∧
    client.driven reference (fun _ => .trusted .pinnedFingerprint)
      (bytes (2 ^ 32 - 1)) = .panicked .overflow := by
  have hh := honest (show 2 ^ 32 - 1 < 2 ^ 32 by decide)
  refine ⟨hh, hh.protectedPackets.count, flatten_bytes _, ?_⟩
  exact driven_panics (by decide) (by decide) fun _ => ⟨_, rfl⟩

end Tatami.Tcp
