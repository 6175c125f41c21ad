import Tatami.Tcp.Negotiate

/-! # Negotiation against RFC 4253

RFC 4253 §7.1 says what two proposals select: of each pair of lists the first name of the client
that the server also lists, markers apart in the list of key-exchange methods. Here that is said in
terms of the names listed, and `negotiate` is compared with it.

* `FirstWith` — the first entry of a list with a property.
* `Fails` and `failureOrder` — when each failure is due, and which one is reported.
* `Selected` — what a successful negotiation returns.
* `negotiation_reference` — the two agree; the order and the number of the server's names and the
  markers of either side do not matter; and our own proposal selects nothing we do not implement. -/

namespace Tatami.Tcp

open Tatami.Wire Tatami.Keys NameList

/-! ### The reference -/

/-- `x` is the first entry of `l` with `P`. -/
def FirstWith {α : Type} (P : α → Prop) (l : List α) (x : α) : Prop :=
  ∃ before after, l = before ++ x :: after ∧ P x ∧ ∀ y ∈ before, ¬P y

theorem find?_eq_some_iff_firstWith {α : Type} {P : α → Prop} {p : α → Bool} {l : List α} {x : α}
    (hp : ∀ y ∈ l, p y = true ↔ P y) : l.find? p = some x ↔ FirstWith P l x := by
  rw [List.find?_eq_some_iff_append]
  constructor
  · rintro ⟨hx, before, after, rfl, hbefore⟩
    refine ⟨before, after, rfl, (hp x (by simp)).mp hx, fun y hy hP => ?_⟩
    have hfound := (hp y (by simp [hy])).mpr hP
    have hnot := hbefore y hy
    rw [hfound] at hnot
    cases hnot
  · rintro ⟨before, after, rfl, hx, hbefore⟩
    refine ⟨(hp x (by simp)).mpr hx, before, after, rfl, fun y hy => ?_⟩
    rw [Bool.not_eq_true', ← Bool.not_eq_true]
    exact fun hfound => hbefore y hy ((hp y (by simp [hy])).mp hfound)

/-- The names in a list of key-exchange methods that are no methods. -/
def markers : List Bytes :=
  [utf8 "ext-info-c", utf8 "ext-info-s", utf8 "kex-strict-c", utf8 "kex-strict-s",
    utf8 "kex-strict-c-v00@openssh.com", utf8 "kex-strict-s-v00@openssh.com"]

/-- The lists of ciphers of one direction. -/
def ciphers (k : KexInit) : Direction → NameList
  | .clientToServer => k.encryptionClientToServer
  | .serverToClient => k.encryptionServerToClient

/-- The lists of compression methods of one direction. -/
def compressions (k : KexInit) : Direction → NameList
  | .clientToServer => k.compressionClientToServer
  | .serverToClient => k.compressionServerToClient

/-- The name two lists select. -/
def Selects (client server : NameList) (name : Bytes) : Prop :=
  FirstWith (· ∈ server.iter) client.iter name

/-- The key-exchange method two proposals select. -/
def SelectsMethod (client server : KexInit) (name : Bytes) : Prop :=
  FirstWith (fun x => x ∉ markers ∧ x ∈ server.kexAlgorithms.iter) client.kexAlgorithms.iter name

/-- When a failure is due. -/
def Fails (client server : KexInit) : NegotiationError → Prop
  | .noCommonKex =>
    ∀ x ∈ client.kexAlgorithms.iter, x ∉ markers → x ∉ server.kexAlgorithms.iter
  | .noCommonHostKey =>
    ∀ x ∈ client.serverHostKeyAlgorithms.iter, x ∉ server.serverHostKeyAlgorithms.iter
  | .noCommonCipher d => ∀ x ∈ (ciphers client d).iter, x ∉ (ciphers server d).iter
  | .noMacImplemented d =>
    ∃ cipher, Selects (ciphers client d) (ciphers server d) cipher ∧ cipher ≠ aes128GcmOpenssh
  | .noCommonCompression d => ∀ x ∈ (compressions client d).iter, x ∉ (compressions server d).iter
  | .unsupportedSelection _ _ => False

/-- The order in which failures are looked for. -/
def failureOrder : List NegotiationError :=
  [.noCommonKex, .noCommonHostKey, .noCommonCipher .clientToServer, .noCommonCipher .serverToClient,
    .noMacImplemented .clientToServer, .noMacImplemented .serverToClient,
    .noCommonCompression .clientToServer, .noCommonCompression .serverToClient]

/-- Whether the two sides list the strict-KEX markers of one spelling. -/
def BothMark (client server : KexInit) : Prop :=
  (utf8 "kex-strict-c-v00@openssh.com" ∈ client.kexAlgorithms.iter ∧
      utf8 "kex-strict-s-v00@openssh.com" ∈ server.kexAlgorithms.iter) ∨
    (utf8 "kex-strict-c" ∈ client.kexAlgorithms.iter ∧
      utf8 "kex-strict-s" ∈ server.kexAlgorithms.iter)

/-- The first key-exchange method of a proposal, if it lists one. -/
def firstListed (k : KexInit) : Option Bytes :=
  (k.kexAlgorithms.iter.filter fun x => x ∉ markers).head?

/-- What a successful negotiation returns. -/
structure Selected (client server : KexInit) (n : Negotiated) : Prop where
  kex : SelectsMethod client server (utf8 n.kex)
  hostKey : Selects client.serverHostKeyAlgorithms server.serverHostKeyAlgorithms (utf8 n.hostKey)
  cipherClientToServer : Selects client.encryptionClientToServer server.encryptionClientToServer
    (utf8 n.encryptionClientToServer)
  cipherServerToClient : Selects client.encryptionServerToClient server.encryptionServerToClient
    (utf8 n.encryptionServerToClient)
  compressionClientToServer : Selects client.compressionClientToServer
    server.compressionClientToServer (utf8 n.compressionClientToServer)
  compressionServerToClient : Selects client.compressionServerToClient
    server.compressionServerToClient (utf8 n.compressionServerToClient)
  strictKex : n.strictKex.negotiated = true ↔ BothMark client server
  serverGuessWrong : n.serverGuessWrong = true ↔ server.firstKexPacketFollows = true ∧
    (firstListed client ≠ firstListed server ∨
      client.serverHostKeyAlgorithms.iter.head? ≠ server.serverHostKeyAlgorithms.iter.head?)

/-! ### Markers -/

/-- A name is a method unless it is a marker. -/
theorem isMethod_iff {name : Bytes} : isMethod name = true ↔ name ∉ markers := by
  simp only [markers, List.mem_cons, List.not_mem_nil, or_false]
  constructor
  · rintro h (rfl | rfl | rfl | rfl | rfl | rfl)
    all_goals exact absurd h (by decide)
  · intro h
    simp only [not_or] at h
    obtain ⟨h₁, h₂, h₃, h₄, h₅, h₆⟩ := h
    rw [isMethod, classifyKexName, if_neg h₁, if_neg h₂, classifyStrictKexName, if_neg h₃,
      if_neg h₄, if_neg h₅, if_neg h₆]
    rfl

/-- The name of a strict-KEX marker. -/
def markerName : StrictKexMarker → Bytes
  | ⟨.client, .standard⟩ => utf8 "kex-strict-c"
  | ⟨.server, .standard⟩ => utf8 "kex-strict-s"
  | ⟨.client, .openSshV00⟩ => utf8 "kex-strict-c-v00@openssh.com"
  | ⟨.server, .openSshV00⟩ => utf8 "kex-strict-s-v00@openssh.com"

/-- A marker is recognised by its name. -/
theorem classifyStrictKexName_eq_some_iff {name : Bytes} {m : StrictKexMarker} :
    classifyStrictKexName name = some m ↔ name = markerName m := by
  constructor
  · intro h
    rw [classifyStrictKexName] at h
    split_ifs at h with hname hname hname hname
    all_goals
      cases h
      exact hname
  · rintro rfl
    obtain ⟨role, spelling⟩ := m
    cases role <;> cases spelling <;> decide

theorem marked_iff {list : NameList} {role : StrictKexRole} {spelling : StrictKexSpelling} :
    StrictKex.marked list role spelling = true ↔ markerName ⟨role, spelling⟩ ∈ list.iter := by
  have hname (x : Bytes) : ((classifyStrictKexName x).any fun m =>
      m.role == role && m.spelling == spelling) = true ↔ x = markerName ⟨role, spelling⟩ := by
    rw [← classifyStrictKexName_eq_some_iff, Option.any_eq_true]
    constructor
    · rintro ⟨m, hm, hmatch⟩
      rw [Bool.and_eq_true, beq_iff_eq, beq_iff_eq] at hmatch
      rw [hm, ← hmatch.1, ← hmatch.2]
    · intro h
      exact ⟨_, h, by simp⟩
  rw [StrictKex.marked, List.any_eq_true]
  constructor
  · rintro ⟨x, hx, hmatch⟩
    exact (hname x).mp hmatch ▸ hx
  · intro hmem
    exact ⟨_, hmem, (hname _).mpr rfl⟩

/-- Strict key exchange is in effect when both sides list the markers of one spelling. -/
theorem evaluate_negotiated_iff (client server : KexInit) :
    (StrictKex.evaluate client server).negotiated = true ↔ BothMark client server := by
  show (_ && _ || _ && _) = true ↔ _
  rw [Bool.or_eq_true, Bool.and_eq_true, Bool.and_eq_true, marked_iff, marked_iff, marked_iff,
    marked_iff]
  rfl

/-! ### The guessed packet -/

/-- The method found first is the one listed first. -/
theorem firstMethod_eq (k : KexInit) : firstMethod k = firstListed k := by
  rw [firstMethod, firstListed, List.head?_filter]
  congr 1
  funext x
  rw [Bool.eq_iff_iff, isMethod_iff, decide_eq_true_iff]

theorem guessWrong_iff (client server : KexInit) :
    guessWrong client server = true ↔ server.firstKexPacketFollows = true ∧
      (firstListed client ≠ firstListed server ∨
        client.serverHostKeyAlgorithms.iter.head? ≠
          server.serverHostKeyAlgorithms.iter.head?) := by
  rw [guessWrong, Bool.and_eq_true, firstMethod_eq, firstMethod_eq]
  simp only [Bool.not_eq_true', Bool.and_eq_false_iff, beq_eq_false_iff_ne]

/-! ### What the two sides have in common -/

/-- What is found in each pair of lists. -/
structure Common where
  kex : Option Bytes
  hostKey : Option Bytes
  encC2s : Option Bytes
  encS2c : Option Bytes
  compC2s : Option Bytes
  compS2c : Option Bytes

/-- What `negotiate` looks for in two proposals. -/
def common (client server : KexInit) : Common where
  kex := (client.kexAlgorithms.iter.filter isMethod).find?
    ((server.kexAlgorithms.iter.filter isMethod).contains ·)
  hostKey := firstCommon client.serverHostKeyAlgorithms server.serverHostKeyAlgorithms
  encC2s := firstCommon client.encryptionClientToServer server.encryptionClientToServer
  encS2c := firstCommon client.encryptionServerToClient server.encryptionServerToClient
  compC2s := firstCommon client.compressionClientToServer server.compressionClientToServer
  compS2c := firstCommon client.compressionServerToClient server.compressionServerToClient

/-- Whether a failure is due, given what is found. -/
def Common.fails (c : Common) : NegotiationError → Bool
  | .noCommonKex => c.kex.isNone
  | .noCommonHostKey => c.hostKey.isNone
  | .noCommonCipher .clientToServer => c.encC2s.isNone
  | .noCommonCipher .serverToClient => c.encS2c.isNone
  | .noMacImplemented .clientToServer => c.encC2s.any (!isAead ·)
  | .noMacImplemented .serverToClient => c.encS2c.any (!isAead ·)
  | .noCommonCompression .clientToServer => c.compC2s.isNone
  | .noCommonCompression .serverToClient => c.compS2c.isNone
  | .unsupportedSelection _ _ => false

/-- The algorithms of a negotiation, without what is known of markers and guesses. -/
structure Selection where
  kex : String
  hostKey : String
  encryptionClientToServer : String
  encryptionServerToClient : String
  macClientToServer : Mac
  macServerToClient : Mac
  compressionClientToServer : String
  compressionServerToClient : String
  deriving DecidableEq

/-- The algorithms that were selected. -/
def Negotiated.selection (n : Negotiated) : Selection where
  kex := n.kex
  hostKey := n.hostKey
  encryptionClientToServer := n.encryptionClientToServer
  encryptionServerToClient := n.encryptionServerToClient
  macClientToServer := n.macClientToServer
  macServerToClient := n.macServerToClient
  compressionClientToServer := n.compressionClientToServer
  compressionServerToClient := n.compressionServerToClient

/-- What is returned when everything was found. -/
def agreed (client server : KexInit) (kex hostKey encC2s encS2c compC2s compS2c : Bytes) :
    Negotiated where
  kex := fromUtf8Lossy kex
  hostKey := fromUtf8Lossy hostKey
  encryptionClientToServer := fromUtf8Lossy encC2s
  encryptionServerToClient := fromUtf8Lossy encS2c
  macClientToServer := .implicitAead
  macServerToClient := .implicitAead
  compressionClientToServer := fromUtf8Lossy compC2s
  compressionServerToClient := fromUtf8Lossy compS2c
  strictKex := .evaluate client server
  extInfo := server.kexAlgorithms.contains (utf8 "ext-info-s")
  serverGuessWrong := guessWrong client server

/-- **Inversion of negotiation**: the first failure that is due is returned, or everything was found
and the ciphers are AEADs. -/
theorem negotiate_cases (client server : KexInit) :
    (∃ e, negotiate client server = .error e ∧
      failureOrder.find? (common client server).fails = some e) ∨
    ∃ kex hostKey encC2s encS2c compC2s compS2c,
      common client server = ⟨some kex, some hostKey, some encC2s, some encS2c, some compC2s,
        some compS2c⟩ ∧ isAead encC2s = true ∧ isAead encS2c = true ∧
      negotiate client server =
        .ok (agreed client server kex hostKey encC2s encS2c compC2s compS2c) := by
  rw [common, negotiate]
  cases (client.kexAlgorithms.iter.filter isMethod).find?
    ((server.kexAlgorithms.iter.filter isMethod).contains ·) with
  | none => exact .inl ⟨_, rfl, rfl⟩
  | some kex =>
  cases firstCommon client.serverHostKeyAlgorithms server.serverHostKeyAlgorithms with
  | none => exact .inl ⟨_, rfl, rfl⟩
  | some hostKey =>
  cases firstCommon client.encryptionClientToServer server.encryptionClientToServer with
  | none => exact .inl ⟨_, rfl, rfl⟩
  | some encC2s =>
  cases firstCommon client.encryptionServerToClient server.encryptionServerToClient with
  | none => exact .inl ⟨_, rfl, rfl⟩
  | some encS2c =>
  -- Both MACs are looked at before the compression methods.
  cases haead₁ : isAead encC2s with
  | false =>
    refine .inl ⟨.noMacImplemented .clientToServer, ?_, ?_⟩
    · simp [bind, Except.bind, okOr, macOf, haead₁]
    · simp [failureOrder, Common.fails, haead₁]
  | true =>
  cases haead₂ : isAead encS2c with
  | false =>
    refine .inl ⟨.noMacImplemented .serverToClient, ?_, ?_⟩
    · simp [bind, Except.bind, okOr, macOf, haead₁, haead₂]
    · simp [failureOrder, Common.fails, haead₁, haead₂]
  | true =>
  cases firstCommon client.compressionClientToServer server.compressionClientToServer with
  | none =>
    refine .inl ⟨.noCommonCompression .clientToServer, ?_, ?_⟩
    · simp [bind, Except.bind, okOr, macOf, haead₁, haead₂]
    · simp [failureOrder, Common.fails, haead₁, haead₂]
  | some compC2s =>
  cases firstCommon client.compressionServerToClient server.compressionServerToClient with
  | none =>
    refine .inl ⟨.noCommonCompression .serverToClient, ?_, ?_⟩
    · simp [bind, Except.bind, okOr, macOf, haead₁, haead₂]
    · simp [failureOrder, Common.fails, haead₁, haead₂]
  | some compS2c =>
    refine .inr ⟨kex, hostKey, encC2s, encS2c, compC2s, compS2c, rfl, haead₁, haead₂, ?_⟩
    simp [bind, Except.bind, pure, Except.pure, okOr, macOf, haead₁, haead₂, agreed]

section Reference

variable {client server : KexInit}

/-- The name found in two lists is the one the RFC selects. -/
theorem firstCommon_eq_some_iff {l m : NameList} {name : Bytes} :
    firstCommon l m = some name ↔ Selects l m name := by
  exact find?_eq_some_iff_firstWith fun x _ => contains_iff

/-- Nothing is found in two lists that have nothing in common. -/
theorem firstCommon_eq_none_iff {l m : NameList} :
    firstCommon l m = none ↔ ∀ x ∈ l.iter, x ∉ m.iter := by
  rw [firstCommon, List.find?_eq_none]
  exact forall₂_congr fun x _ => not_congr contains_iff

/-- Looking for a method among methods is looking for a method among all names. -/
theorem common_kex_eq : (common client server).kex = client.kexAlgorithms.iter.find?
    fun x => decide (x ∉ markers ∧ x ∈ server.kexAlgorithms.iter) := by
  show (client.kexAlgorithms.iter.filter isMethod).find? _ = _
  rw [List.find?_filter]
  congr 1
  funext x
  rw [decide_eq_decide, isMethod_iff, List.contains_iff_mem, List.mem_filter, isMethod_iff]
  exact ⟨fun h => ⟨h.1, h.2.1⟩, fun h => ⟨h.1, h.2, h.1⟩⟩

/-- The method found is the one the RFC selects. -/
theorem common_kex_eq_some_iff {name : Bytes} :
    (common client server).kex = some name ↔ SelectsMethod client server name := by
  rw [common_kex_eq]
  exact find?_eq_some_iff_firstWith fun x _ => decide_eq_true_iff

/-- A failure is due as the RFC has it. -/
theorem common_fails_iff (e : NegotiationError) :
    (common client server).fails e = true ↔ Fails client server e := by
  have hnone {l m : NameList} : (firstCommon l m).isNone = true ↔ ∀ x ∈ l.iter, x ∉ m.iter := by
    rw [Option.isNone_iff_eq_none, firstCommon_eq_none_iff]
  have hmac {l m : NameList} : (firstCommon l m).any (!isAead ·) = true ↔
      ∃ cipher, Selects l m cipher ∧ cipher ≠ aes128GcmOpenssh := by
    rw [Option.any_eq_true]
    refine exists_congr fun cipher => and_congr firstCommon_eq_some_iff ?_
    rw [Bool.not_eq_true', isAead, beq_eq_false_iff_ne]
  cases e with
  | noCommonKex =>
    show (common client server).kex.isNone = true ↔ _
    rw [Option.isNone_iff_eq_none, common_kex_eq, List.find?_eq_none]
    refine forall₂_congr fun x _ => ?_
    rw [decide_eq_true_iff, not_and]
  | noCommonHostKey => exact hnone
  | noCommonCipher d | noCommonCompression d =>
    cases d with
    | clientToServer => exact hnone
    | serverToClient => exact hnone
  | noMacImplemented d =>
    cases d with
    | clientToServer => exact hmac
    | serverToClient => exact hmac
  | unsupportedSelection => exact ⟨nofun, nofun⟩

/-- **The failure that is reported is the first one that is due.** -/
theorem negotiate_error_iff {e : NegotiationError} :
    negotiate client server = .error e ↔ FirstWith (Fails client server) failureOrder e := by
  rw [← find?_eq_some_iff_firstWith fun e _ => common_fails_iff e]
  rcases negotiate_cases client server with ⟨_, he', hfind⟩ |
    ⟨_, hostKey, _, _, _, _, hcommon, haead₁, haead₂, hok⟩
  · rw [he', hfind, Except.error.injEq, Option.some.injEq]
  · rw [hok, hcommon]
    refine ⟨nofun, fun hfind => ?_⟩
    simp [failureOrder, Common.fails, haead₁, haead₂] at hfind

/-- **What is returned is what the RFC selects.** -/
theorem selected_of_negotiate {n : Negotiated} (h : negotiate client server = .ok n) :
    Selected client server n := by
  rcases negotiate_cases client server with ⟨_, he', -⟩ |
    ⟨kex, hostKey, _, _, _, _, hcommon, -, -, hok⟩
  · rw [he'] at h
    cases h
  rw [hok] at h
  obtain rfl := Except.ok.inj h
  -- Names are ASCII, so the text that is returned is the name itself.
  have hselects {l m : NameList} {name : Bytes} (hfound : firstCommon l m = some name) :
      Selects l m (utf8 (fromUtf8Lossy name)) := by
    rw [utf8_fromUtf8Lossy (ascii_of_mem (List.mem_of_find?_eq_some hfound))]
    exact firstCommon_eq_some_iff.mp hfound
  have hkex : SelectsMethod client server (utf8 (fromUtf8Lossy kex)) := by
    have hfound := congrArg Common.kex hcommon
    have hmem := hfound
    rw [common_kex_eq] at hmem
    rw [utf8_fromUtf8Lossy (ascii_of_mem (List.mem_of_find?_eq_some hmem))]
    exact common_kex_eq_some_iff.mp hfound
  exact ⟨hkex, hselects (congrArg Common.hostKey hcommon),
    hselects (congrArg Common.encC2s hcommon), hselects (congrArg Common.encS2c hcommon),
    hselects (congrArg Common.compC2s hcommon), hselects (congrArg Common.compS2c hcommon),
    evaluate_negotiated_iff client server, guessWrong_iff client server⟩

/-! ### What does not matter -/

/-- Two proposals of a server list the same names, in any order and any number, markers apart. -/
structure SameNames (server server' : KexInit) : Prop where
  kex : ∀ x, x ∉ markers → (x ∈ server.kexAlgorithms.iter ↔ x ∈ server'.kexAlgorithms.iter)
  hostKey : ∀ x, x ∈ server.serverHostKeyAlgorithms.iter ↔
    x ∈ server'.serverHostKeyAlgorithms.iter
  cipher : ∀ d x, x ∈ (ciphers server d).iter ↔ x ∈ (ciphers server' d).iter
  compression : ∀ d x, x ∈ (compressions server d).iter ↔ x ∈ (compressions server' d).iter

/-- Two proposals of a client list the same names in the same order, markers apart. -/
structure SamePreferences (client client' : KexInit) : Prop where
  kex : (client.kexAlgorithms.iter.filter fun x => x ∉ markers) =
    client'.kexAlgorithms.iter.filter fun x => x ∉ markers
  hostKey : client.serverHostKeyAlgorithms.iter = client'.serverHostKeyAlgorithms.iter
  cipher : ∀ d, (ciphers client d).iter = (ciphers client' d).iter
  compression : ∀ d, (compressions client d).iter = (compressions client' d).iter

/-- What is found in two lists does not depend on order and number of the second. -/
theorem firstCommon_congr {l l' m m' : NameList} (hl : l.iter = l'.iter)
    (hm : ∀ x, x ∈ m.iter ↔ x ∈ m'.iter) : firstCommon l m = firstCommon l' m' := by
  rw [firstCommon, firstCommon, hl]
  congr 1
  funext x
  rw [Bool.eq_iff_iff, contains_iff, contains_iff, hm]

/-- What is found in such proposals is the same. -/
theorem common_congr {client' server' : KexInit} (hclient : SamePreferences client client')
    (hserver : SameNames server server') : common client server = common client' server' := by
  have hkex : (common client server).kex = (common client' server').kex := by
    have hsplit (c s : KexInit) : (common c s).kex =
        ((c.kexAlgorithms.iter.filter fun x => x ∉ markers).filter
          fun x => x ∈ s.kexAlgorithms.iter).head? := by
      rw [common_kex_eq, List.head?_filter, List.find?_filter]
      simp only [decide_eq_true_iff]
    rw [hsplit, hsplit, hclient.kex, List.filter_congr fun x hx => ?_]
    have hmethod : x ∉ markers := of_decide_eq_true (List.mem_filter.mp hx).2
    rw [decide_eq_decide]
    exact hserver.kex x hmethod
  rw [common, common, Common.mk.injEq]
  exact ⟨hkex, firstCommon_congr hclient.hostKey hserver.hostKey,
    firstCommon_congr (hclient.cipher .clientToServer) (hserver.cipher .clientToServer),
    firstCommon_congr (hclient.cipher .serverToClient) (hserver.cipher .serverToClient),
    firstCommon_congr (hclient.compression .clientToServer) (hserver.compression .clientToServer),
    firstCommon_congr (hclient.compression .serverToClient) (hserver.compression .serverToClient)⟩

/-- **Order, number and markers do not matter** to the selection and to the failure. -/
theorem negotiate_selection_congr {client' server' : KexInit}
    (hclient : SamePreferences client client') (hserver : SameNames server server') :
    (negotiate client server).map Negotiated.selection =
      (negotiate client' server').map Negotiated.selection := by
  have hcommon := common_congr hclient hserver
  rcases negotiate_cases client server with ⟨e, he, hfind⟩ |
    ⟨_, hostKey, _, _, _, _, hfound, haead₁, haead₂, hok⟩
  · have he' : negotiate client' server' = .error e := by
      rw [negotiate_error_iff, ← find?_eq_some_iff_firstWith fun e _ => common_fails_iff e,
        ← hcommon, hfind]
    rw [he, he']
  · rcases negotiate_cases client' server' with ⟨_, -, hfind'⟩ |
      ⟨_, hostKey', _, _, _, _, hfound', -, -, hok'⟩
    · rw [← hcommon, hfound] at hfind'
      simp [failureOrder, Common.fails, haead₁, haead₂] at hfind'
    · rw [← hcommon, hfound] at hfound'
      cases hfound'
      rw [hok, hok']
      rfl

end Reference

/-! ### Our own proposal -/

/-- The first of a list is in the list. -/
theorem FirstWith.mem {α : Type} {P : α → Prop} {l : List α} {x : α} (h : FirstWith P l x) :
    x ∈ l := by
  obtain ⟨_, _, rfl, -, -⟩ := h
  simp

/-- Our own proposal lists one method; the other names are markers. -/
theorem kexAlgorithms_mem (p : ClientProposal) :
    ∀ x ∈ p.kexAlgorithms, x = curve25519Sha256 ∨ x ∈ markers := by
  rw [ClientProposal.kexAlgorithms]
  cases p.advertiseExtInfo <;> cases p.offerStrictKex <;> decide

/-- **Whatever our own proposal selects is implemented.** -/
theorem checkProfile_of_proposal (p : ClientProposal) {server : KexInit} {n : Negotiated}
    (h : negotiate p.kexInit server = .ok n) : n.checkProfile = .ok () := by
  have hs := selected_of_negotiate h
  have hkex : utf8 n.kex = curve25519Sha256 := by
    obtain ⟨-, -, -, ⟨hmethod, -⟩, -⟩ := hs.kex
    have hmem := hs.kex.mem
    rw [ClientProposal.kexInit, iter_ofNames] at hmem
    exact (kexAlgorithms_mem p _ hmem).resolve_right hmethod
  have hhost : n.hostKeyScheme.isNone = false := by
    have hmem := hs.hostKey.mem
    rw [ClientProposal.kexInit, iter_ofNames, List.mem_map] at hmem
    obtain ⟨_, -, hscheme⟩ := hmem
    rw [Negotiated.hostKeyScheme, ← hscheme, SignatureScheme.fromName_name]
    rfl
  have hone {l m : NameList} {name x : Bytes} (hl : l.iter = [name]) (hx : Selects l m x) :
      x = name := by
    have hmem := hx.mem
    rw [hl] at hmem
    exact List.mem_singleton.mp hmem
  rw [Negotiated.checkProfile, hkex, hhost,
    hone (iter_ofNames (by decide)) hs.cipherClientToServer,
    hone (iter_ofNames (by decide)) hs.cipherServerToClient,
    hone (iter_ofNames (by decide)) hs.compressionClientToServer,
    hone (iter_ofNames (by decide)) hs.compressionServerToClient]
  simp [isAead]

/-- **Negotiation is that of RFC 4253 §7.1.** For every two proposals: what is returned is what the
RFC selects, with the strict-KEX decision and the judgement of a guessed packet; a failure is
reported exactly when one is due, the first one in order; the selection and the failure do not
depend on order and number of the server's names nor on the markers either side lists; and when the
client's proposal is one of ours, decoded from what we send, the check of the profile never fails.
-/
theorem negotiation_reference :
    (∀ (client server : KexInit) (n : Negotiated), negotiate client server = .ok n →
      Selected client server n) ∧
    (∀ (client server : KexInit) (e : NegotiationError), negotiate client server = .error e ↔
      FirstWith (Fails client server) failureOrder e) ∧
    (∀ client server : KexInit, (∃ n, negotiate client server = .ok n) ↔
      ∀ e ∈ failureOrder, ¬Fails client server e) ∧
    (∀ client client' server server' : KexInit, SamePreferences client client' →
      SameNames server server' → (negotiate client server).map Negotiated.selection =
        (negotiate client' server').map Negotiated.selection) ∧
    (∀ (p : ClientProposal) (bytes : Bytes) (client server : KexInit) (n : Negotiated),
      p.encode = .ok bytes → KexInit.decode bytes = .ok client →
      negotiate client server = .ok n → n.checkProfile = .ok ()) := by
  refine ⟨fun _ _ _ => selected_of_negotiate, fun _ _ _ => negotiate_error_iff, ?_,
    fun _ _ _ _ => negotiate_selection_congr, ?_⟩
  · intro client server
    constructor
    · rintro ⟨n, hn⟩ e he hfails
      obtain ⟨e', he'⟩ : ∃ e', failureOrder.find? (common client server).fails = some e' := by
        rw [← Option.isSome_iff_exists, List.find?_isSome]
        exact ⟨e, he, (common_fails_iff e).mpr hfails⟩
      have herror := negotiate_error_iff.mpr
        ((find?_eq_some_iff_firstWith fun e _ => common_fails_iff e).mp he')
      rw [hn] at herror
      cases herror
    · intro hnone
      rcases negotiate_cases client server with ⟨e, he, -⟩ | ⟨_, _, _, _, _, _, -, -, -, hok⟩
      · have hfirst := negotiate_error_iff.mp he
        have hmem := hfirst.mem
        obtain ⟨-, -, -, hfails, -⟩ := hfirst
        exact absurd hfails (hnone e hmem)
      · exact ⟨_, hok⟩
  · intro p bytes client server n hencode hdecode hn
    rw [p.encode_eq] at hencode
    cases hencode
    rw [p.decode_kexInit] at hdecode
    cases hdecode
    exact checkProfile_of_proposal p hn

/-- A proposal of ours with all markers, for a sample run. -/
def sampleProposal : ClientProposal where
  cookie := .zero cookieLen
  advertiseExtInfo := true
  offerStrictKex := true
  hostKeyAlgorithms := ⟨[.ed25519], by decide, by decide⟩

/-- Our proposal, sent to a server that offers the same. -/
theorem negotiation_reference_sample :
    ∃ n, negotiate sampleProposal.kexInit sampleProposal.kexInit = .ok n ∧
      Selected sampleProposal.kexInit sampleProposal.kexInit n ∧ n.checkProfile = .ok () := by
  have hok : (negotiate sampleProposal.kexInit sampleProposal.kexInit).toOption.isSome = true := by
    decide +kernel
  cases hn : negotiate sampleProposal.kexInit sampleProposal.kexInit with
  | error =>
    rw [hn] at hok
    cases hok
  | ok n =>
    exact ⟨n, rfl, negotiation_reference.1 _ _ _ hn,
      negotiation_reference.2.2.2.2 sampleProposal _ _ _ _ sampleProposal.encode_eq
        sampleProposal.decode_kexInit hn⟩

end Tatami.Tcp
