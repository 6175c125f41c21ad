import Tatami.Tcp.Handshake.Driver

/-! # What an honest server sends

A `ServerScript` is the data of a server's side of the exchange: its prelude and identification
lines, its unprotected packets with their padding, and its protected packets. `Honest` says what
makes it legal for a given client: everything decodes, the two sides agree, the reply is signed over
the exchange hash, the protected packets are sealed with the derived keys, and all limits of the
configuration are respected. The server of the reference handshake is one (`Reference.honest`). -/

namespace Tatami.Tcp

open Tatami.Wire Tatami.Keys Tatami.Reactor AeadDirection

/-- An unprotected packet of the server. -/
structure Packet where
  payload : Bytes
  padding : Bytes
  deriving DecidableEq

/-- The bytes of an unprotected packet. -/
def Packet.frame (p : Packet) : Bytes := initialFrame p.payload p.padding

/-- A protected packet of the server: its payload and its bytes on the wire. -/
structure SealedPacket where
  payload : Bytes
  wire : Bytes
  deriving DecidableEq

/-- Everything a server sends. -/
structure ServerScript where
  /-- The prelude lines without their LF. -/
  preludeLines : List Bytes
  /-- The identification line without its terminator: `V_S`. -/
  line : Bytes
  terminator : LineTerminator
  beforeKexInit : List Packet
  kexInit : Packet
  afterKexInit : List Packet
  /-- The packet sent on a wrong guess. -/
  guess : Option Packet
  beforeReply : List Packet
  reply : Packet
  beforeNewKeys : List Packet
  newKeys : Packet
  extInfo : Option SealedPacket
  beforeAccept : List SealedPacket
  accept : SealedPacket
  deriving DecidableEq

namespace ServerScript

/-- The unprotected packets, in order. -/
def packets (script : ServerScript) : List Packet :=
  script.beforeKexInit ++ script.kexInit :: (script.afterKexInit ++ (script.guess.toList ++
    (script.beforeReply ++ script.reply :: (script.beforeNewKeys ++ [script.newKeys]))))

/-- The unprotected packets that the client skips. -/
def skips (script : ServerScript) : List Packet :=
  script.beforeKexInit ++ script.afterKexInit ++ script.beforeReply ++ script.beforeNewKeys

/-- The protected packets, in order. -/
def sealedPackets (script : ServerScript) : List SealedPacket :=
  script.extInfo.toList ++ script.beforeAccept ++ [script.accept]

/-- The prelude lines and the identification line. -/
def lines (script : ServerScript) : Bytes :=
  script.preludeLines.flatMap (· ++ [0x0a]) ++ (script.line ++ script.terminator.bytes)

/-- The bytes of the server, in order. -/
def stream (script : ServerScript) : Bytes :=
  script.lines ++ (script.packets.flatMap Packet.frame ++
    script.sealedPackets.flatMap SealedPacket.wire)

end ServerScript

/-- An `IGNORE` or a `DEBUG` that decodes. -/
def IgnoreOrDebug (payload : Bytes) : Prop :=
  (∃ m, Ignore.decode payload = .ok m) ∨ ∃ m, Debug.decode payload = .ok m

/-- A message that is skipped before `NEWKEYS`, and that decodes. -/
def Skippable (payload : Bytes) : Prop :=
  IgnoreOrDebug payload ∨ ∃ m, Unimplemented.decode payload = .ok m

/-- An `EXT_INFO` that is well formed and within its limit, with a `server-sig-algs` that is a
name-list if it is there. -/
def ValidExtInfo (config : HandshakeConfig) (payload : Bytes) : Prop :=
  ∃ ext, ExtInfo.decode payload = .ok ext ∧
    (∃ n, ext.validate config.maxExtInfoExtensions.toNat = .ok n) ∧
    ∀ e, ext.serverSigAlgs ≠ some (.error e)

/-- The lines of a script are within the limits of the identification phase. -/
structure ServerScript.LegalLines (config : HandshakeConfig) (script : ServerScript) : Prop where
  prelude : ∀ content ∈ script.preludeLines, 0x0a ∉ content ∧ ¬Ident.sshDash <+: content ∧
    content.length + 1 ≤ config.ident.maxPreludeLine.toNat
  count : script.preludeLines.length ≤ config.ident.maxPreludeLines.toNat
  bytes : (script.preludeLines.flatMap (· ++ [0x0a])).length ≤ config.ident.maxPreludeBytes.toNat
  /-- The line parses, and its version is 2.0 or 1.99. -/
  identification : ∃ ident, parseIdentification script.line script.terminator = .ok ident
  length : script.line.length + script.terminator.byteLen ≤
    config.ident.maxIdentificationLine.toNat

/-- The unprotected packets of a script are legal, within the budgets, and of the expected kinds. -/
structure ServerScript.LegalPackets (config : HandshakeConfig) (n : Negotiated)
    (script : ServerScript) : Prop where
  legal : ∀ p ∈ script.packets, LegalFrame config.packet p.payload p.padding
  count : script.packets.length ≤ config.maxPreKexPackets.toNat
  bytes : (script.packets.flatMap Packet.frame).length ≤ config.maxPreKexBytes.toNat
  skips : ∀ p ∈ script.skips, Skippable p.payload
  strict : n.strictKex.negotiated = true → script.skips = []
  guess_iff : script.guess.isSome = true ↔ n.serverGuessWrong = true
  guess : ∀ p, script.guess = some p →
    ∃ number, p.payload.head? = some number ∧ Msg.isKexMethodSpecific number = true
  newKeys : ∃ m, NewKeys.decode script.newKeys.payload = .ok m

/-- The key exchange of a script succeeds: the two `KEXINIT`s lead to `n`, and `v` is the record of
a reply that the client accepts. -/
structure ServerScript.Agrees (C : Crypto) (h : ClientHandshake) (n : Negotiated) (v : Verified)
    (script : ServerScript) : Prop where
  negotiated : ∃ client server, KexInit.decode h.setup.iC = .ok client ∧
    KexInit.decode script.kexInit.payload = .ok server ∧ negotiateProfile client server = .ok n
  reply : KexEcdhReply.decode script.reply.payload = .ok v.reply
  hostKey : ∃ blob, PublicKeyBlob.decode v.reply.hostKeyBlob = .ok blob ∧
    HostKey.fromBlob C blob = .ok v.key
  scheme : n.hostKeyScheme = some v.scheme
  keyType : v.key.keyType = v.scheme.keyType
  /-- `Q_S` is 32 bytes, and the shared secret is not zero. -/
  shared : ∃ e qS, h.state.ephemeral = some e ∧ v.reply.serverEphemeral = ByteVec.toBytes qS ∧
    C.diffieHellman e.secret qS = v.secret.bytes ∧ v.secret.bytes ≠ .zero 32
  vC : h.setup.clientLine = v.inputs.vC ++ [0x0d, 0x0a]
  vS : v.inputs.vS = script.line
  iC : v.inputs.iC = h.setup.iC
  iS : v.inputs.iS = script.kexInit.payload
  kS : v.inputs.kS = v.reply.hostKeyBlob
  qC : v.inputs.qC = h.setup.qC.toBytes
  qS : v.inputs.qS = v.reply.serverEphemeral
  hash : exchangeHash C v.inputs v.secret = .ok v.hash
  signature : SignatureBlob.decode v.reply.signatureBlob = .ok v.signature
  verified : v.key.verify C v.scheme v.hash.bytes.toBytes v.signature h.setup.provider = .ok ()

/-- The protected packets of a script are sealed in order with the derived keys, within the budgets,
and of the expected kinds; and neither side runs out of nonces. -/
structure ServerScript.LegalSealed (C : Crypto) (config : HandshakeConfig) (v : Verified)
    (script : ServerScript) : Prop where
  sealed : ∀ i p, script.sealedPackets[i]? = some p →
    SealedAt C (v.receiveKeys C) i (nonceAt (v.receiveKeys C) i) p.payload p.wire
  length : ∀ p ∈ script.sealedPackets,
    p.wire.length ≤ lengthLen + config.packet.maxPacketLength.toNat + tagLen
  count : script.sealedPackets.length ≤ config.maxProtectedPackets.toNat
  extInfo : ∀ p, script.extInfo = some p → ValidExtInfo config p.payload
  skips : ∀ p ∈ script.beforeAccept, IgnoreOrDebug p.payload
  accept : ServiceAccept.decode script.accept.payload = .ok { serviceName := config.service }
  nonces : counterOf (v.receiveKeys C).iv + script.sealedPackets.length < 2 ^ 64
  /-- Our `SERVICE_REQUEST` fits a packet. -/
  request : config.service.length + 6 +
    paddingFor (config.service.length + 6) < 2 ^ 32
  /-- Our own two protected packets. -/
  ourNonces : counterOf (v.sendKeys C).iv + 2 < 2 ^ 64

/-- A script is what an honest server may send to this client. -/
structure ServerScript.Honest (C : Crypto) (h : ClientHandshake) (n : Negotiated) (v : Verified)
    (script : ServerScript) : Prop where
  lines : script.LegalLines h.setup.config
  packets : script.LegalPackets h.setup.config n
  agrees : script.Agrees C h n v
  protectedPackets : script.LegalSealed C h.setup.config v

/-! ### The reference server -/

namespace Reference

/-- An empty `IGNORE`. -/
def ignore : Bytes := [Msg.ignore, 0, 0, 0, 0]

/-- The reference server, with `k` protected `IGNORE`s before its `SERVICE_ACCEPT`. -/
def script (k : Nat) : ServerScript where
  preludeLines := []
  line := serverLine
  terminator := .crLf
  beforeKexInit := []
  kexInit := ⟨serverKexInit, leastPadding serverKexInit⟩
  afterKexInit := []
  guess := none
  beforeReply := []
  reply := ⟨serverReply, leastPadding serverReply⟩
  beforeNewKeys := []
  newKeys := ⟨[Msg.newKeys], leastPadding [Msg.newKeys]⟩
  extInfo := none
  beforeAccept := (List.range k).map fun i => ⟨ignore, sealed i ignore⟩
  accept := ⟨serviceAccept, sealed k serviceAccept⟩

/-- What the two sides agree on. -/
def negotiated : Negotiated where
  kex := "curve25519-sha256"
  hostKey := "ssh-ed25519"
  encryptionClientToServer := "aes128-gcm@openssh.com"
  encryptionServerToClient := "aes128-gcm@openssh.com"
  macClientToServer := .implicitAead
  macServerToClient := .implicitAead
  compressionClientToServer := "none"
  compressionServerToClient := "none"
  strictKex := ⟨true, true, true, false, true⟩
  extInfo := false
  serverGuessWrong := false

/-- What the client verifies. -/
def verified : Verified where
  reply :=
    { hostKeyBlob
      serverEphemeral := serverPublic.toBytes
      signatureBlob := lengthPrefixed (utf8 "ssh-ed25519") ++ lengthPrefixed signature.toBytes }
  inputs :=
    { vC := utf8 "SSH-2.0-tatami_0.1.0"
      vS := serverLine
      iC := client.setup.iC
      iS := serverKexInit
      kS := hostKeyBlob
      qC := clientPublic.toBytes
      qS := serverPublic.toBytes }
  secret := ⟨sharedSecret⟩
  hash := ⟨hash⟩
  key := .ed25519 ⟨hostKey⟩
  scheme := .ed25519
  signature := ⟨utf8 "ssh-ed25519", signature.toBytes⟩

/-- The shortest padding makes a legal packet. -/
theorem legalFrame_leastPadding {limits : PacketLimits} {payload : Bytes}
    (hfits : payload.length + 12 ≤ limits.maxPacketLength.toNat) :
    LegalFrame limits payload (leastPadding payload) := by
  have hlen : (leastPadding payload).length = 11 - payload.length % 8 := List.length_replicate
  constructor <;> simp only [hlen, minPadding, headerLen, initialBlockSize, minTotalLen] <;> omega

/-- Only a success has a value. -/
theorem eq_ok_of_toOption {ε α : Type} {x : Except ε α} {a : α} (h : x.toOption = some a) :
    x = .ok a := by
  cases x with
  | error => cases h
  | ok => rw [Option.some.inj h]

theorem agrees (k : Nat) : (script k).Agrees reference client negotiated verified where
  negotiated := by
    have hall : ((KexInit.decode client.setup.iC).toOption.bind fun c =>
        (KexInit.decode serverKexInit).toOption.bind fun s =>
          (negotiateProfile c s).toOption) = some negotiated := by
      decide +kernel
    obtain ⟨c, hc, hrest⟩ := Option.bind_eq_some_iff.mp hall
    obtain ⟨s, hs, hn⟩ := Option.bind_eq_some_iff.mp hrest
    exact ⟨c, s, eq_ok_of_toOption hc, eq_ok_of_toOption hs, eq_ok_of_toOption hn⟩
  reply := by
    change KexEcdhReply.decode serverReply = .ok verified.reply
    decide +kernel
  hostKey := by
    have hall : ((PublicKeyBlob.decode hostKeyBlob).toOption.bind fun blob =>
        (HostKey.fromBlob reference blob).toOption) = some (.ed25519 ⟨hostKey⟩) := by
      decide +kernel
    obtain ⟨blob, hblob, hkey⟩ := Option.bind_eq_some_iff.mp hall
    exact ⟨blob, eq_ok_of_toOption hblob, eq_ok_of_toOption hkey⟩
  scheme := by decide +kernel
  keyType := by decide +kernel
  shared := ⟨⟨clientSecret, clientPublic⟩, serverPublic, by decide +kernel, rfl,
    by decide +kernel, by decide +kernel⟩
  vC := by decide +kernel
  vS := rfl
  iC := by rw [verified]
  iS := rfl
  kS := rfl
  qC := by decide +kernel
  qS := rfl
  hash := by decide +kernel
  signature := by decide +kernel
  verified := by decide +kernel

/-- The length of the body of a protected packet. -/
theorem length_plainBody (payload : Bytes) : (plainBody payload).length =
    payload.length + 1 + paddingFor (payload.length + 1) := by
  rw [plainBody, sealedBody, List.length_cons, List.length_append, List.length_replicate]
  omega

theorem sealed_eq {i : Nat} {payload : Bytes} (hpayload : payload.length < 2 ^ 31) :
    ∃ cipher tag, reference.encrypt serverKeys.key (nonceAt serverKeys i)
        (beBytes 4 (plainBody payload).length) (plainBody payload) = some (cipher, tag) ∧
      sealed i payload =
        beBytes 4 (plainBody payload).length ++ cipher.toBytes ++ tag.toBytes := by
  have hpadding := (paddingFor_bounds (payload.length + 1)).2.1
  have hshort : (plainBody payload).length < 2 ^ 32 := by
    rw [length_plainBody]
    omega
  obtain ⟨⟨cipher, tag⟩, henc⟩ := Option.isSome_iff_exists.mp (reference_sealTotal serverKeys.key
    (nonceAt serverKeys i) (beBytes 4 (plainBody payload).length) _ hshort)
  exact ⟨cipher, tag, henc, by rw [sealed, henc]⟩

/-- The payloads of the server's protected packets are short. -/
theorem length_payloads : ignore.length < 100 ∧ serviceAccept.length < 100 := by
  decide +kernel

/-- A protected packet of a short payload is short. -/
theorem length_sealed_le {i : Nat} {payload : Bytes} (hpayload : payload.length < 100) :
    (sealed i payload).length ≤ lengthLen + 200 + tagLen := by
  have hpadding := (paddingFor_bounds (payload.length + 1)).2.1
  obtain ⟨_, _, -, heq⟩ := sealed_eq (i := i) (Nat.lt_trans hpayload (by decide))
  rw [heq, List.length_append, List.length_append, length_beBytes, ByteVec.length_toBytes,
    ByteVec.length_toBytes, length_plainBody, lengthLen]
  omega

/-- Every packet of the server is sealed as the client expects it. -/
theorem sealedAt_sealed {i : Nat} {payload : Bytes} (hpayload : payload.length < 100)
    (hi : counterOf serverKeys.iv + i < 2 ^ 64) :
    SealedAt reference serverKeys i (nonceAt serverKeys i) payload
      (sealed i payload) := by
  obtain ⟨hmin, hmax, haligned⟩ := paddingFor_bounds (payload.length + 1)
  have hlen : (List.replicate (paddingFor (payload.length + 1)) (0 : UInt8)).length =
      paddingFor (payload.length + 1) := List.length_replicate
  refine ⟨rfl, ⟨serverKeys.key, fixedOf serverKeys.iv,
    counterOf serverKeys.iv + i, 0, hi, Nat.zero_le _⟩, ⟨rfl, rfl, rfl⟩,
    List.replicate (paddingFor (payload.length + 1)) 0, ?_,
    sealed_eq (Nat.lt_trans hpayload (by decide))⟩
  refine ⟨by rw [hlen]; exact hmin, by rw [hlen]; omega, ?_, by rw [hlen]; omega⟩
  rw [hlen, Nat.add_comm 1]
  exact haligned

/-- The initial counters leave room for more packets than the machine counts. -/
theorem counters_lt : counterOf serverKeys.iv + (2 ^ 32 + 1) < 2 ^ 64 ∧
    counterOf (verified.sendKeys reference).iv + 2 < 2 ^ 64 := by
  decide +kernel

/-- The client derives the server's keys. -/
theorem receiveKeys_verified : verified.receiveKeys reference = serverKeys := by
  rw [Verified.receiveKeys, serverKeys, verified]

/-- The protected packets of the server, in order. -/
theorem sealedPackets_eq (k : Nat) : (script k).sealedPackets =
    (List.range k).map (fun i => ⟨ignore, sealed i ignore⟩) ++
      [⟨serviceAccept, sealed k serviceAccept⟩] := rfl

/-- The number of protected packets of the server. -/
theorem length_sealedPackets (k : Nat) : (script k).sealedPackets.length = k + 1 := by
  rw [sealedPackets_eq, List.length_append, List.length_map, List.length_range]
  rfl

/-- The lines of the server are within the limits. -/
theorem legalLines (k : Nat) : (script k).LegalLines config where
  prelude := nofun
  count := Nat.zero_le _
  bytes := Nat.zero_le _
  identification := ⟨_, rfl⟩
  length := by
    change serverLine.length + LineTerminator.crLf.byteLen ≤ _
    decide +kernel

/-- The unprotected packets of the server are legal. -/
theorem legalPackets (k : Nat) : (script k).LegalPackets config negotiated where
  legal := by
    intro p hp
    have hp : p ∈ [serverKexInit, serverReply, [Msg.newKeys]].map
      fun payload => (⟨payload, leastPadding payload⟩ : Packet) := hp
    obtain ⟨payload, hpayload, rfl⟩ := List.mem_map.mp hp
    have hfits : ∀ q ∈ [serverKexInit, serverReply, [Msg.newKeys]],
        q.length + 12 ≤ config.packet.maxPacketLength.toNat := by
      decide +kernel
    exact legalFrame_leastPadding (hfits payload hpayload)
  count := by
    change 3 ≤ config.maxPreKexPackets.toNat
    decide
  bytes := by
    change ((script 0).packets.flatMap Packet.frame).length ≤ _
    decide +kernel
  skips := nofun
  strict := fun _ => rfl
  guess_iff := by
    change false = true ↔ false = true
    rfl
  guess := nofun
  newKeys := ⟨_, rfl⟩

/-- The protected packets of the server are legal, for as many as the client's budget allows. -/
theorem legalSealed {k : Nat} (hk : k < 2 ^ 32) :
    (script k).LegalSealed reference config verified := by
  obtain ⟨hcounter, hours⟩ := counters_lt
  have hcount := length_sealedPackets k
  obtain ⟨hignore, haccept⟩ := length_payloads
  exact {
    sealed := by
      intro i p hp
      have hi := (List.getElem?_eq_some_iff.mp hp).1
      rw [hcount] at hi
      have hnonce : counterOf serverKeys.iv + i < 2 ^ 64 := by omega
      rw [receiveKeys_verified]
      rw [sealedPackets_eq, List.getElem?_append, List.length_map, List.length_range] at hp
      split at hp
      · rename_i hlt
        rw [List.getElem?_map, List.getElem?_range hlt] at hp
        obtain rfl := Option.some.inj hp
        exact sealedAt_sealed hignore hnonce
      · obtain rfl : i = k := by omega
        rw [Nat.sub_self, List.getElem?_cons_zero] at hp
        obtain rfl := Option.some.inj hp
        exact sealedAt_sealed haccept hnonce
    length := by
      intro p hp
      have hcap : 200 ≤ config.packet.maxPacketLength.toNat := by decide
      have hshort : p.wire.length ≤ lengthLen + 200 + tagLen := by
        rw [sealedPackets_eq, List.mem_append, List.mem_map, List.mem_singleton] at hp
        rcases hp with ⟨i, -, rfl⟩ | rfl
        · exact length_sealed_le hignore
        · exact length_sealed_le haccept
      exact Nat.le_trans hshort (Nat.add_le_add_right (Nat.add_le_add_left hcap _) _)
    count := by
      rw [hcount]
      exact hk
    extInfo := nofun
    skips := by
      intro p hp
      obtain ⟨i, -, rfl⟩ := List.mem_map.mp hp
      have hdecode : Ignore.decode ignore = .ok ⟨[]⟩ := by decide
      exact .inl ⟨_, hdecode⟩
    accept := by
      change ServiceAccept.decode serviceAccept = _
      decide +kernel
    nonces := by
      rw [hcount, receiveKeys_verified]
      omega
    request := by decide +kernel
    ourNonces := hours }

/-- **The reference server is honest**, for as many packets as the client's budget allows. -/
theorem honest {k : Nat} (hk : k < 2 ^ 32) :
    (script k).Honest reference client negotiated verified := by
  have hconfig : client.setup.config = config := (build_ok build_client).config_eq
  constructor
  case lines => exact hconfig ▸ legalLines k
  case packets => exact hconfig ▸ legalPackets k
  case agrees => exact agrees k
  case protectedPackets => exact hconfig ▸ legalSealed hk

end Reference

end Tatami.Tcp
