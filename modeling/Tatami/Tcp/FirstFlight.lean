import Tatami.Tcp.ChunkIndependence
import Tatami.Tcp.IdentReference

/-! # The client's first flight at the observer

What `ClientHandshake` sends first is its identification line and its `KEXINIT` in one output. Our
own observer reads it back exactly, however it is cut: one event with the line, then the proposal.
The result is put together from the four codecs on the way: the identification line, the name lists
and the `KEXINIT` around them, and the packet. -/

namespace Tatami.Tcp

open Tatami.Wire Tatami.Keys Tatami.Reactor Reference

/-! ### The proposal -/

/-- The client offers something in every list that must not be empty. -/
theorem ClientProposal.emptyAlgorithmLists_kexInit (p : ClientProposal) :
    p.kexInit.emptyAlgorithmLists = [] := by
  have hkex : p.kexInit.kexAlgorithms.isEmpty = false :=
    NameList.isEmpty_ofNames p.isValidName_kexAlgorithms (by simp [kexAlgorithms])
  have hkey : p.kexInit.serverHostKeyAlgorithms.isEmpty = false :=
    NameList.isEmpty_ofNames p.isValidName_hostKeyAlgorithms
      (by simpa using p.hostKeyAlgorithms.nonempty)
  simp only [KexInit.emptyAlgorithmLists, KexInit.algorithmListNames, KexInit.nameLists,
    List.zip_cons_cons, List.zip_nil_left, List.filter_cons, hkex, hkey]
  rfl

/-- The client's own `KEXINIT` is taken for one. -/
theorem classifyInitial_kexInit (p : ClientProposal) (n : Nat) :
    classifyInitial p.kexInit.payload n = .kexInit p.kexInit p.kexInit.payload n := by
  have hhead : p.kexInit.payload.head? = some Msg.kexInit := rfl
  rw [classifyInitial, hhead]
  simp only
  rw [if_neg (by decide), if_neg (by decide), if_neg (by decide), if_neg (by decide),
    if_pos trivial, p.decode_kexInit]

/-- The frame of the client's `KEXINIT` is taken by a decoder with room for it. -/
theorem InitialPackets.step_kexInit {limits : InitialLimits} {p : ClientProposal} {wire : Bytes}
    (hwire : FrameOf p.kexInit.payload wire) (hcap : 1024 ≤ limits.packet.maxPacketLength.toNat)
    (hpackets : 1 ≤ limits.maxPackets.toNat) (hbytes : 1024 ≤ limits.maxBytes.toNat) :
    ∃ packets, (InitialPackets.new limits).step wire =
      .ok (.kexInit p.kexInit p.kexInit.payload wire.length, packets) := by
  obtain ⟨padding, hlegal, rfl⟩ := hwire
  have hpayload := p.length_payload_le
  have hheader : headerLen = 5 := rfl
  have hpadding := hlegal.padding_lt
  have hfits : LegalFrame limits.packet p.kexInit.payload padding :=
    { hlegal with within_cap := by omega }
  have hframe := initialDecision_frame hfits []
  rw [List.append_nil] at hframe
  obtain ⟨_, packets, hstep, hcase⟩ :=
    (InitialPackets.new limits).step_returns (initialFrame p.kexInit.payload padding)
  refine ⟨packets, hstep.trans ?_⟩
  -- The frame is complete and within both budgets, so that the payload is classified.
  cases hcase with
  | needMore t h | refused e h => cases hframe.symm.trans h
  | overPackets _ _ hover =>
    change limits.maxPackets.toNat ≤ 0 at hover
    omega
  | overBytes _ h _ hover =>
    cases hframe.symm.trans h
    change limits.maxBytes.toNat <
      min (0 + (headerLen + p.kexInit.payload.length + padding.length)) _ at hover
    omega
  | accepted _ h =>
    cases hframe.symm.trans h
    rw [classifyInitial_kexInit, length_initialFrame]

/-! ### The flight -/

/-- What the client sends first: its line, and the frame of a proposal's `KEXINIT`. -/
theorem first_flight {ρ ε : Type} {C : Crypto}
    {tryFillBytes : (n : Nat) → ρ → Except ε (ByteVec n × ρ)} {config : HandshakeConfig} {rng : ρ}
    {provider : Option SignatureProvider} {h : ClientHandshake}
    (hb : build C tryFillBytes config rng provider = .ok (.ok h)) :
    ∃ (p : ClientProposal) (wire : Bytes),
      buildIdentification config.softwareVersion = .ok h.setup.clientLine ∧
      h.setup.iC = p.kexInit.payload ∧ h.setup.clientKexinit = p.kexInit.toOwned ∧
      FrameOf p.kexInit.payload wire ∧ h.takeOutput.1 = h.setup.clientLine ++ wire := by
  obtain ⟨_, p, _, _, hline, hwith⟩ := build_with hb
  obtain ⟨_, _, wire, -, hwire, hsetup, -, hstate⟩ := buildWith_ok hwith
  refine ⟨p, wire, by rw [hsetup, hline], by rw [hsetup], by rw [hsetup], hwire, ?_⟩
  rw [ClientHandshake.takeOutput, hstate, hsetup]
  rfl

/-- Our identification without its line end. -/
def ownLine (software : Bytes) : Bytes := Ident.sshDash ++ (utf8 "2.0" ++ 0x2d :: software)

/-- The observer reads our line as an SSH 2.0 identification. -/
theorem Observer.look_ownLine {s : ObserverState} {software : Bytes}
    (hsoftware : Ident.VersionToken software) (hend : s.ending = none)
    (hstage : s.stage = .clientIdentification) (hbanner : s.bannerOnly = false)
    (hlen : (ownLine software).length + 2 ≤ s.ident.limits.maxIdentificationLine.toNat)
    (rest : Bytes) :
    look s (ownLine software ++ ([0x0d, 0x0a] ++ rest)) =
      .event (.clientIdentification
          ⟨ownLine software, .crLf, "2.0", fromUtf8Lossy software, none, .ssh2⟩)
        { s with stage := .initialPackets } ((ownLine software).length + 2) := by
  have hstart : startsIdentification (ownLine software ++ ([0x0d, 0x0a] ++ rest)) = some true := by
    rw [startsIdentification_eq, if_pos]
    rw [ownLine, List.append_assoc]
    exact List.prefix_append _ _
  have hfeed : s.ident.feed (ownLine software ++ ([0x0d, 0x0a] ++ rest)) =
      (.ok (.identification ⟨ownLine software, .crLf, utf8 "2.0", software, none, .ssh2⟩
        ((ownLine software).length + 2)), s.ident) :=
    IdentificationReader.feed_identification (parseIdentification_own hsoftware .crLf) hlen rest
  have hversion : fromUtf8Lossy (utf8 "2.0") = "2.0" :=
    fromUtf8Lossy_utf8 versionToken_two.clean.2
  have hline : front.stage s = .line := congrArg ObserverStage.front hstage
  have hlook (w : Bytes) : look s w = lookLine s w := Front.look_line hend hline w
  rw [hlook, lookLine, hstart, if_neg (by decide), hfeed]
  simp only [Identification.toOwned, hversion, hbanner]
  rfl

/-- The observer reads the frame of a client's `KEXINIT` as its proposal. -/
theorem Observer.look_kexInit {s : ObserverState} {limits : InitialLimits} {p : ClientProposal}
    {wire : Bytes} (hend : s.ending = none) (hstage : s.stage = .initialPackets)
    (hpackets : s.packets = .new limits) (hwire : FrameOf p.kexInit.payload wire)
    (hcap : 1024 ≤ limits.packet.maxPacketLength.toNat) (hmost : 1 ≤ limits.maxPackets.toNat)
    (hbytes : 1024 ≤ limits.maxBytes.toNat) :
    look s wire = .finished (.proposal p.kexInit p.kexInit.payload) wire.length := by
  obtain ⟨_, hstep⟩ := InitialPackets.step_kexInit hwire hcap hmost hbytes
  rw [← hpackets] at hstep
  have hlook : front.stage s = .packets := congrArg ObserverStage.front hstage
  exact Front.look_packet hend hlook hstep

/-- The observer on our line and the frame of a client's `KEXINIT`. -/
theorem Observer.whole_flight {config : ObserverConfig} {o : Observer} {software : Bytes}
    {p : ClientProposal} {wire : Bytes} (ho : new config = .ok (.ok o))
    (hsoftware : Ident.VersionToken software) (hwire : FrameOf p.kexInit.payload wire)
    (hbanner : config.bannerOnly = false)
    (hline : (ownLine software).length + 2 ≤ config.maxIdentificationLine.toNat)
    (hcap : 1024 ≤ config.initial.packet.maxPacketLength.toNat)
    (hpackets : 1 ≤ config.initial.maxPackets.toNat)
    (hbytes : 1024 ≤ config.initial.maxBytes.toNat) :
    Whole (Watch.turn look) (Watch.ended fun s => .eof s.stage) ⟨o.state, [], 0⟩
      (ownLine software ++ ([0x0d, 0x0a] ++ wire))
      ([.clientIdentification
          ⟨ownLine software, .crLf, "2.0", fromUtf8Lossy software, none, .ssh2⟩],
        (ownLine software).length + 2 + wire.length, .proposal p.kexInit p.kexInit.payload) := by
  obtain ⟨-, -, -, -, hstate⟩ := made ho
  rw [hstate]
  have hdrop : (ownLine software ++ ([0x0d, 0x0a] ++ wire)).drop ((ownLine software).length + 2) =
      wire := by
    rw [← List.append_assoc]
    exact List.drop_left' (by simp)
  refine Watch.whole_event (look_ownLine hsoftware rfl rfl hbanner hline wire) ?_
  rw [hdrop, Nat.zero_add]
  exact Watch.whole_finished (look_kexInit rfl rfl rfl hwire hcap hpackets hbytes)

/-- **The client's first flight is observed exactly.** For every client that builds and every
observer with room for it: fed the first output of the client in any pieces, the observer reports
the client's identification and nothing else, and comes to its proposal, as sent and as the client
reports it. -/
theorem first_flight_observed {ρ ε : Type} {C : Crypto}
    {tryFillBytes : (n : Nat) → ρ → Except ε (ByteVec n × ρ)} {config : HandshakeConfig} {rng : ρ}
    {provider : Option SignatureProvider} {h : ClientHandshake} {observing : ObserverConfig}
    {o : Observer} (hb : build C tryFillBytes config rng provider = .ok (.ok h))
    (ho : Observer.new observing = .ok (.ok o)) (hbanner : observing.bannerOnly = false)
    (hline : 255 ≤ observing.maxIdentificationLine.toNat)
    (hcap : 1024 ≤ observing.initial.packet.maxPacketLength.toNat)
    (hpackets : 1 ≤ observing.initial.maxPackets.toNat)
    (hbytes : 1024 ≤ observing.initial.maxBytes.toNat) :
    ∃ vC r, clientIdentificationLine h.setup = .ok vC ∧ report h.setup h.state = .ok r ∧
      (∃ pieces events outcome arrived o', pieces.flatten = h.takeOutput.1 ∧
        Observer.machine.Session o pieces events outcome arrived o') ∧
      ∀ {pieces events outcome arrived o'}, pieces.flatten = h.takeOutput.1 →
        Observer.machine.Session o pieces events outcome arrived o' →
        events = [.clientIdentification
          ⟨vC, .crLf, "2.0", config.softwareVersion, none, .ssh2⟩] ∧
        outcome = .proposal ⟨r.advertisedClient, h.setup.iC, [], 0⟩ := by
  obtain ⟨p, wire, hown, hiC, hclient, hwire, hflight⟩ := first_flight hb
  obtain ⟨hsoftware, hlineEq, hmax⟩ := buildIdentification_eq hown
  change h.setup.clientLine = ownLine (utf8 config.softwareVersion) ++ [0x0d, 0x0a] at hlineEq
  have hvC : clientIdentificationLine h.setup = .ok (ownLine (utf8 config.softwareVersion)) :=
    clientIdentificationLine_of_eq hlineEq
  obtain ⟨r, hr, hadvertised⟩ : ∃ r, report h.setup h.state = .ok r ∧
      r.advertisedClient = h.setup.clientKexinit := by
    rw [report, hvC]
    exact ⟨_, rfl, rfl⟩
  obtain ⟨_, hcapacity, hkept, hheld, -⟩ := Observer.made ho
  have hlines : 4 ≤ o.state.ident.limits.maxLine := by
    rw [show o.state.ident.limits = _ from hkept.ident]
    exact Nat.le_trans (by decide) (Nat.le_trans hline (Nat.le_max_left _ _))
  have hindependent := Observer.chunkIndependent (Nat.le_trans (by decide) hline) ho
  refine ⟨_, r, hvC, hr, hindependent.served _, ?_⟩
  intro pieces events outcome arrived o' hpieces hsession
  obtain ⟨n, v, hrun, hn, houtcome, -, -⟩ := hsession.whole
    (Observer.machine_implements hcapacity) Observer.front.look_steady hkept hlines hheld
  have hlength : (ownLine (utf8 config.softwareVersion)).length + 2 ≤
      observing.maxIdentificationLine.toNat := by
    rw [hlineEq, List.length_append] at hmax
    exact Nat.le_trans hmax hline
  have hwhole := Observer.whole_flight ho hsoftware hwire hbanner hlength hcap hpackets hbytes
  have harrived := hsession.arrived_le.length_le
  rw [hpieces, hflight, hlineEq, List.append_assoc] at hrun harrived
  obtain ⟨hevents, hverdict⟩ := Prod.mk.inj (hrun.unique hwhole)
  obtain ⟨rfl, rfl⟩ := Prod.mk.inj hverdict
  rw [fromUtf8Lossy_utf8 hsoftware.clean.2] at hevents
  refine ⟨hevents, ?_⟩
  -- All of the flight was needed for the proposal, so that nothing is left behind it.
  have hrest : (arrived.drop ((ownLine (utf8 config.softwareVersion)).length + 2 +
      wire.length)).length = 0 := by
    simp only [List.length_append, List.length_cons, List.length_nil] at harrived
    rw [List.length_drop]
    omega
  rw [houtcome, ObserverVerdict.outcome, hrest, hadvertised, hclient, hiC, Proposal.fromKexinit,
    p.emptyAlgorithmLists_kexInit]
  rfl

/-- The reference client at an observer of the default configuration. -/
theorem first_flight_observed_reference :
    ∃ o vC r, Observer.new .default = .ok (.ok o) ∧
      clientIdentificationLine client.setup = .ok vC ∧
      report client.setup client.state = .ok r ∧
      ∀ {pieces events outcome arrived o'}, pieces.flatten = client.takeOutput.1 →
        Observer.machine.Session o pieces events outcome arrived o' →
        events = [.clientIdentification ⟨vC, .crLf, "2.0", config.softwareVersion, none,
          .ssh2⟩] ∧ outcome = .proposal ⟨r.advertisedClient, client.setup.iC, [], 0⟩ := by
  have hline : 255 ≤ ObserverConfig.default.maxIdentificationLine.toNat := by decide
  have hcap : 1024 ≤ ObserverConfig.default.initial.packet.maxPacketLength.toNat := by decide
  obtain ⟨vC, r, hvC, hr, -, hobserved⟩ := first_flight_observed build_client
    (show Observer.new .default = .ok (.ok _) from rfl) rfl hline hcap (by decide) (by decide)
  exact ⟨_, vC, r, rfl, hvC, hr, hobserved⟩

end Tatami.Tcp
