import Tatami.Lib.Languages
import Tatami.Tcp.Handshake.Sequence

/-! # The language of server packets

Which sequences of message numbers the machine goes along with, as a product of languages, and the
invariant that says how far in it each phase is. A packet that leaves the language ends the
handshake. -/

open scoped Computability

namespace Tatami.Tcp

open Tatami.Wire Tatami.Keys Language

variable {C : Crypto} {u : Setup} {payload : Bytes} {s s' : State}

/-! ### The language -/

/-- The message numbers of payloads; an empty payload has none. -/
def numbers (payloads : List Bytes) : List (Option UInt8) := payloads.map List.head?

theorem numbers_snoc (payloads : List Bytes) (payload : Bytes) :
    numbers (payloads ++ [payload]) = numbers payloads ++ [payload.head?] := List.map_append

/-- One message with a given number. -/
def message (number : UInt8) : Language (Option UInt8) := {[some number]}

/-- One message that is skipped. -/
def skippable : Language (Option UInt8) :=
  message Msg.ignore + message Msg.debug + message Msg.unimplemented

/-- Any number of skipped messages; none under strict KEX. -/
def skips (strict : Bool) : Language (Option UInt8) := if strict then 1 else skippable∗

/-- One message of the guessed key exchange if the guess was wrong, none otherwise. -/
def guessed (wrong : Bool) : Language (Option UInt8) :=
  if wrong then Language.letters fun n => ∃ k, n = some k ∧ Msg.isKexMethodSpecific k = true else 1

/-- The unprotected server packets up to and with `KEXINIT`. -/
def throughKexInit (strict : Bool) : Language (Option UInt8) :=
  skips strict * message Msg.kexInit * skips strict

/-- The unprotected server packets up to and with the reply. -/
def throughReply (strict wrong : Bool) : Language (Option UInt8) :=
  throughKexInit strict * guessed wrong * skips strict * message Msg.kexEcdhReply

/-- The unprotected server packets of a whole key exchange: `KEXINIT`, the wrongly guessed packet,
the reply and `NEWKEYS`, with skipped messages before each. -/
def kexLanguage (strict wrong : Bool) : Language (Option UInt8) :=
  throughReply strict wrong * skips strict * message Msg.newKeys

/-- The protected server packets before `SERVICE_ACCEPT`: an `EXT_INFO` at most, and first, and
skipped messages. -/
def beforeAccept : Language (Option UInt8) :=
  (1 + message Msg.extInfo) * (message Msg.ignore + message Msg.debug)∗

/-- The protected server packets of a completed handshake. -/
def serviceLanguage : Language (Option UInt8) := beforeAccept * message Msg.serviceAccept

/-- The part of the key-exchange language a phase has read. -/
def Phase.language (strict wrong discarded : Bool) : Phase → Language (Option UInt8)
  | .ecdhReply =>
    if discarded then throughKexInit strict * guessed wrong * skips strict
    else throughKexInit strict
  | .trustDecision => throughReply strict wrong
  | .serverNewKeys => throughReply strict wrong * skips strict
  | _ => 0

theorem nil_mem_skips (strict : Bool) : [] ∈ skips strict := by
  cases strict
  · exact nil_mem_kstar _
  · exact nil_mem_one

variable {strict wrong : Bool} {w : List (Option UInt8)} {opened received : List Bytes} {k : UInt8}

/-- One more skipped message, when messages may be skipped. -/
theorem snoc_mem_mul_skips {A : Language (Option UInt8)} (hw : w ∈ A * skips false)
    (hk : isSkip k = true) : w ++ [some k] ∈ A * skips false := by
  refine snoc_mem_mul_kstar hw ?_
  rw [isSkip, Bool.or_eq_true, Bool.or_eq_true, beq_iff_eq, beq_iff_eq, beq_iff_eq] at hk
  rcases hk with (rfl | rfl) | rfl
  · exact .inl (.inl rfl)
  · exact .inl (.inr rfl)
  · exact .inr rfl

/-! ### The invariant -/

/-- How far in the language the machine is, for given packets received and opened. -/
structure Grammar (received opened : List Bytes) (s : State) : Prop where
  ident : s.phase = .serverIdentification →
    received = [] ∧ s.skipped = [] ∧ s.guessDiscarded = false
  kexinit : s.phase = .serverKexInit → numbers received ∈ skips false ∧
    s.skipped.length = received.length ∧ s.guessDiscarded = false
  kex : s.phase = .ecdhReply ∨ s.phase = .trustDecision ∨ s.phase = .serverNewKeys →
    ∀ n, s.negotiated = some n →
      numbers received ∈
        s.phase.language n.strictKex.negotiated n.serverGuessWrong s.guessDiscarded ∧
      (s.guessDiscarded = true → n.serverGuessWrong = true) ∧
      (n.strictKex.negotiated = true → s.skipped = [])
  done : s.newkeysReceived = true → ∀ n, s.negotiated = some n →
    numbers received ∈ kexLanguage n.strictKex.negotiated n.serverGuessWrong
  unskipped : s.phase = .service → s.hist.accepted = [] → ∀ n, s.negotiated = some n →
    n.strictKex.negotiated = true → s.skipped = []
  unopened : s.newkeysReceived = false → opened = []
  service : s.phase = .service → s.pendingOutcome = none →
    numbers opened ∈ beforeAccept ∧ s.protectedReceived = opened.length
  completed : s.pendingOutcome = some .completed ∨ s.outcome = some .completed →
    numbers opened ∈ serviceLanguage

/-- An ended state only remembers the languages that were read to their end. -/
theorem grammar_of_finished (hphase : s.phase = .finished)
    (hdone : s.newkeysReceived = true → ∀ n, s.negotiated = some n →
      numbers received ∈ kexLanguage n.strictKex.negotiated n.serverGuessWrong)
    (hunopened : s.newkeysReceived = false → opened = [])
    (hcompleted : s.pendingOutcome = some .completed ∨ s.outcome = some .completed →
      numbers opened ∈ serviceLanguage) : Grammar received opened s where
  ident := by simp [hphase]
  kexinit := by simp [hphase]
  kex := by simp [hphase]
  done := hdone
  unskipped := by simp [hphase]
  unopened := hunopened
  service := by simp [hphase]
  completed := hcompleted

/-- A failed check keeps the invariant, whatever was received or opened with it, as long as what was
received before the failure is still what the key exchange allows. -/
theorem grammar_of_failed (hs : Basic s) (hne : s.phase ≠ .finished)
    (hdone : s.newkeysReceived = true → ∀ n, s.negotiated = some n →
      numbers received ∈ kexLanguage n.strictKex.negotiated n.serverGuessWrong)
    (hunopened : s.newkeysReceived = false → opened = []) (hf : Failed s s') :
    Grammar received opened s' := by
  obtain ⟨o, ho, hfail⟩ := hf.outcome
  refine grammar_of_finished hf.phase ?_ (by rw [hf.newkeysReceived]; exact hunopened) ?_
  · rw [hf.newkeysReceived]
    intro hreceived
    -- the negotiation changes only before the keys do
    have hphase := (hs.received_iff hne).mp hreceived
    rcases hf.negotiated with hkexinit | ⟨-, hneg, -⟩
    · rw [hphase] at hkexinit
      cases hkexinit
    · rw [hneg]
      exact hdone hreceived
  · rw [hf.pendingOutcome, ho]
    rintro (hnone | hcompleted)
    · cases hnone
    · cases hcompleted
      cases hfail

theorem grammar_of_kexinit (hs : Basic s) (hnone : s.outcome = none)
    (hpending : s.pendingOutcome = none) (hphase : s.phase = .serverKexInit)
    (hread : numbers received ∈ skips false ∧ s.skipped.length = received.length ∧
      s.guessDiscarded = false) : Grammar received [] s where
  ident := by simp [hphase]
  kexinit := fun _ => hread
  kex := by simp [hphase]
  done := by
    intro hreceived
    have := (hs.received_iff (hs.phase_ne hnone)).mp hreceived
    rw [hphase] at this
    cases this
  unskipped := by simp [hphase]
  unopened := fun _ => rfl
  service := by simp [hphase]
  completed := by simp [hnone, hpending]

/-- A state of the key exchange after the server `KEXINIT`. -/
theorem grammar_of_kex (hs : Basic s) (hnone : s.outcome = none)
    (hpending : s.pendingOutcome = none)
    (hphase : s.phase = .ecdhReply ∨ s.phase = .trustDecision ∨ s.phase = .serverNewKeys)
    (hread : ∀ n, s.negotiated = some n →
      numbers received ∈
        s.phase.language n.strictKex.negotiated n.serverGuessWrong s.guessDiscarded ∧
      (s.guessDiscarded = true → n.serverGuessWrong = true) ∧
      (n.strictKex.negotiated = true → s.skipped = [])) : Grammar received [] s where
  ident := by rcases hphase with h | h | h <;> simp [h]
  kexinit := by rcases hphase with h | h | h <;> simp [h]
  kex := fun _ => hread
  done := by
    intro hreceived
    have := (hs.received_iff (hs.phase_ne hnone)).mp hreceived
    rcases hphase with h | h | h <;> rw [h] at this <;> cases this
  unskipped := by rcases hphase with h | h | h <;> simp [h]
  unopened := fun _ => rfl
  service := by rcases hphase with h | h | h <;> simp [h]
  completed := by simp [hnone, hpending]

/-! ### Unprotected packets -/

/-- Where packets may be skipped, one more is part of the language. -/
theorem Phase.snoc_mem_language {phase : Phase} {discarded : Bool}
    (hphase : phase = .ecdhReply ∨ phase = .serverNewKeys)
    (hw : w ∈ phase.language false wrong discarded) (hk : isSkip k = true) :
    w ++ [some k] ∈ phase.language false wrong discarded := by
  rcases hphase with rfl | rfl
  · cases discarded with
    | false | true => exact snoc_mem_mul_skips hw hk
  · exact snoc_mem_mul_skips hw hk

/-- A skipped message keeps the invariant: messages are skipped before strict KEX is known, or
without it. -/
theorem Grammar.skipped {number : UInt8} {m : SkippedMessage} (h : Grammar received [] s)
    (hidle : s.Idle) (hv : Verification C u s) (hnumber : payload.head? = some number)
    (hskip : isSkip number = true) (hphase : s.phase = .serverKexInit ∨
      ((s.phase = .ecdhReply ∨ s.phase = .serverNewKeys) ∧ s.strictActive = false))
    (hs' : Basic { s with skipped := s.skipped ++ [m] }) :
    Grammar (received ++ [payload]) [] { s with skipped := s.skipped ++ [m] } := by
  rcases hphase with hphase | ⟨hphase, hinactive⟩
  · obtain ⟨hread, hlen, hguess⟩ := h.kexinit hphase
    refine grammar_of_kexinit hs' hidle.outcome hidle.pendingOutcome hphase ⟨?_, ?_, hguess⟩
    · rw [numbers_snoc, hnumber, ← one_mul (skips false)]
      exact snoc_mem_mul_skips (by rwa [one_mul]) hskip
    · rw [List.length_append, List.length_append, hlen]
      rfl
  · have hkex : s.phase = .ecdhReply ∨ s.phase = .trustDecision ∨ s.phase = .serverNewKeys :=
      hphase.elim .inl fun h => .inr (.inr h)
    refine grammar_of_kex hs' hidle.outcome hidle.pendingOutcome hkex fun n hn => ?_
    obtain ⟨hread, hguess, -⟩ := h.kex hkex n hn
    -- the machine's flag is that of the negotiation
    have hplain : n.strictKex.negotiated = false := by
      obtain ⟨n', _, _, _, hneg⟩ :=
        hv.negotiated (hphase.imp_right fun h => hv.known (.inr (.inl h)))
      obtain rfl : n' = n := Option.some.inj (hneg.stored.symm.trans hn)
      rw [State.strictActive, hneg.strict] at hinactive
      exact hinactive
    rw [hplain] at hread ⊢
    refine ⟨?_, hguess, fun hstrict => by cases hstrict⟩
    rw [numbers_snoc, hnumber]
    exact Phase.snoc_mem_language hphase hread hskip

/-- The server `KEXINIT` keeps the invariant: under strict KEX it was the first packet. -/
theorem Grammar.negotiated {n : Negotiated} (h : Grammar received [] s)
    (hphase : s.phase = .serverKexInit) (hnumber : payload.head? = some Msg.kexInit)
    (hfirst : n.strictKex.negotiated = true → received = []) :
    numbers (received ++ [payload]) ∈ throughKexInit n.strictKex.negotiated ∧
      (n.strictKex.negotiated = true → s.skipped = []) := by
  obtain ⟨hread, hlen, -⟩ := h.kexinit hphase
  rw [numbers_snoc, hnumber]
  cases hstrict : n.strictKex.negotiated with
  | false =>
    refine ⟨?_, fun hfalse => by cases hfalse⟩
    exact mem_mul_of_nil_mem (append_mem_mul hread rfl) (nil_mem_skips _)
  | true =>
    obtain rfl := hfirst hstrict
    refine ⟨?_, fun _ => List.eq_nil_of_length_eq_zero hlen⟩
    exact mem_mul_of_nil_mem (append_mem_mul (nil_mem_skips true) rfl)
      (nil_mem_skips _)

/-- The dropped packet is part of the language. -/
theorem snoc_mem_of_guess (hw : w ∈ throughKexInit strict) (hk : Msg.isKexMethodSpecific k = true) :
    w ++ [some k] ∈ throughKexInit strict * guessed true * skips strict :=
  mem_mul_of_nil_mem
    (append_mem_mul hw (singleton_mem_letters ⟨k, rfl, hk⟩)) (nil_mem_skips _)

/-- The reply is part of the language, once the wrongly guessed packet was dropped. -/
theorem snoc_mem_of_reply {discarded : Bool}
    (hw : w ∈ Phase.ecdhReply.language strict wrong discarded) (hdropped : discarded = wrong) :
    w ++ [some Msg.kexEcdhReply] ∈ throughReply strict wrong := by
  subst hdropped
  refine append_mem_mul ?_ rfl
  cases discarded with
  | true => exact hw
  | false =>
    exact mem_mul_of_nil_mem (mem_mul_of_nil_mem hw nil_mem_one)
      (nil_mem_skips _)

theorem Grammar.newkeys {n : Negotiated} (h : Grammar received opened s)
    (hphase : s.phase = .serverNewKeys) (hnumber : payload.head? = some Msg.newKeys)
    (hn : s.negotiated = some n) :
    numbers (received ++ [payload]) ∈ kexLanguage n.strictKex.negotiated n.serverGuessWrong := by
  obtain ⟨hread, -, -⟩ := h.kex (.inr (.inr hphase)) n hn
  rw [hphase] at hread
  rw [numbers_snoc, hnumber]
  exact append_mem_mul hread rfl

theorem Grammar.handled (h : Grammar received [] s) (hs : Basic s) (hidle : s.Idle)
    (hv : Verification C u s) (hseq : Sequence C 1 s)
    (hlast : s.hist.received = received ++ [payload]) (hkex : s.phase.isKex = true)
    (hh : Handled C u payload s s') : Grammar (received ++ [payload]) [] s' := by
  have hs' := hs.handled hidle hh
  have hne := hs.phase_ne hidle.outcome
  have hunreceived : s.newkeysReceived = false := by
    rw [← Bool.not_eq_true, hs.received_iff hne]
    intro hservice
    rw [hservice] at hkex
    cases hkex
  cases hh with
  | failed hf =>
    refine grammar_of_failed hs hne (fun hreceived => ?_) (fun _ => rfl) hf
    exact absurd (hunreceived.symm.trans hreceived) (by decide)
  | skipped _ _ hnumber hskip hphase =>
    exact h.skipped hidle hv hnumber hskip hphase hs'
  | kexinit _ _ n _ _ hphase hnumber _ _ _ hfirst =>
    obtain ⟨-, -, hguess⟩ := h.kexinit hphase
    have hfirst' (hstrict : n.strictKex.negotiated = true) : received = [] := by
      have hlen := hseq.preKex hne
      rw [hfirst hstrict, hlast, List.length_append, List.length_singleton] at hlen
      exact List.eq_nil_of_length_eq_zero (by omega)
    obtain ⟨hread, hskipped⟩ := h.negotiated hphase hnumber hfirst'
    refine grammar_of_kex hs' hidle.outcome hidle.pendingOutcome (.inl rfl) fun n' hn' => ?_
    obtain rfl : n = n' := Option.some.inj hn'
    refine ⟨?_, fun hdiscarded => ?_, hskipped⟩
    · change _ ∈ Phase.ecdhReply.language _ _ s.guessDiscarded
      rw [hguess]
      exact hread
    · exact absurd (hguess.symm.trans hdiscarded) (by decide)
  | guess _ n hphase hnumber hspecific hneg hwrong hfirst =>
    obtain ⟨hread, -, hskipped⟩ := h.kex (.inl hphase) n hneg
    rw [hphase, hfirst] at hread
    refine grammar_of_kex hs' hidle.outcome hidle.pendingOutcome (.inl hphase) fun n' hn' => ?_
    obtain rfl : n = n' := Option.some.inj (hneg.symm.trans hn')
    refine ⟨?_, fun _ => hwrong, hskipped⟩
    change _ ∈ s.phase.language _ _ true
    rw [hphase, hwrong, numbers_snoc, hnumber]
    exact snoc_mem_of_guess hread hspecific
  | reply _ _ _ hphase hnumber hguess =>
    refine grammar_of_kex hs' hidle.outcome hidle.pendingOutcome (.inr (.inl rfl)) fun n hn => ?_
    obtain ⟨hread, hdiscarded, hskipped⟩ := h.kex (.inl hphase) n hn
    rw [hphase] at hread
    refine ⟨?_, hdiscarded, hskipped⟩
    rw [numbers_snoc, hnumber]
    refine snoc_mem_of_reply hread ?_
    -- the packet was dropped exactly if the guess was wrong
    rw [Bool.eq_iff_iff]
    exact ⟨hdiscarded, hguess n hn⟩
  | newkeys _ _ _ _ _ hphase hnumber =>
    obtain ⟨hnone, -⟩ := hseq.unprotected hunreceived
    exact {
      ident := by simp [State.queueSealed, State.protect]
      kexinit := by simp [State.queueSealed, State.protect]
      kex := by simp [State.queueSealed, State.protect]
      done := fun _ n hn => h.newkeys hphase hnumber hn
      unskipped := fun _ _ n hn => (h.kex (.inr (.inr hphase)) n hn).2.2
      unopened := fun _ => rfl
      service := by
        refine fun _ _ => ⟨?_, ?_⟩
        · exact mem_mul_of_nil_mem (.inl rfl) (nil_mem_kstar _)
        · exact hseq.protectedReceived_eq.trans (by rw [hnone])
      completed := by simp [State.queueSealed, State.protect, hidle.outcome, hidle.pendingOutcome] }
  | newkeysFailed _ _ _ _ hphase hnumber =>
    exact grammar_of_finished rfl (fun _ n hn => h.newkeys hphase hnumber hn) (fun _ => rfl)
      (by simp [State.finish])

/-! ### Protected packets -/

/-- A state that has accepted a protected packet and goes on. -/
theorem grammar_of_service (hphase : s.phase = .service) (hreceived : s.newkeysReceived = true)
    (haccepted : s.hist.accepted ≠ []) (hnone : s.outcome = none)
    (hdone : ∀ n, s.negotiated = some n →
      numbers received ∈ kexLanguage n.strictKex.negotiated n.serverGuessWrong)
    (hservice : s.pendingOutcome = none →
      numbers opened ∈ beforeAccept ∧ s.protectedReceived = opened.length)
    (hcompleted : s.pendingOutcome = some .completed → numbers opened ∈ serviceLanguage) :
    Grammar received opened s where
  ident := by simp [hphase]
  kexinit := by simp [hphase]
  kex := by simp [hphase]
  done := fun _ => hdone
  unskipped := fun _ hnil => absurd hnil haccepted
  unopened := fun hnot => absurd (hnot.symm.trans hreceived) (by decide)
  service := fun _ => hservice
  completed := by
    rintro (hpending | houtcome)
    · exact hcompleted hpending
    · rw [hnone] at houtcome
      cases houtcome

/-- A skipped message is part of the language. -/
theorem snoc_mem_beforeAccept (hw : w ∈ beforeAccept) (hk : k = Msg.ignore ∨ k = Msg.debug) :
    w ++ [some k] ∈ beforeAccept := by
  refine snoc_mem_mul_kstar hw ?_
  rcases hk with rfl | rfl
  · exact .inl rfl
  · exact .inr rfl

theorem Grammar.handledProtected (hs : Basic s) (hidle : s.Idle) (hphase : s.phase = .service)
    (haccepted : s.hist.accepted ≠ []) (hdone : ∀ n, s.negotiated = some n →
      numbers received ∈ kexLanguage n.strictKex.negotiated n.serverGuessWrong)
    (hread : numbers opened ∈ beforeAccept) (hcount : s.protectedReceived = opened.length + 1)
    (hh : HandledProtected C u payload s s') : Grammar received (opened ++ [payload]) s' := by
  have hne := hs.phase_ne hidle.outcome
  have hreceived : s.newkeysReceived = true := (hs.received_iff hne).mpr hphase
  have hlen : (opened ++ [payload]).length = opened.length + 1 := List.length_append
  cases hh with
  | failed hf =>
    refine grammar_of_failed hs hne (fun _ => hdone) (fun hnot => ?_) hf
    exact absurd (hnot.symm.trans hreceived) (by decide)
  | skipped _ _ hnumber hskip =>
    refine grammar_of_service hphase hreceived haccepted hidle.outcome hdone (fun _ => ⟨?_, ?_⟩)
      (by simp [hidle.pendingOutcome])
    · rw [numbers_snoc, hnumber]
      exact snoc_mem_beforeAccept hread hskip
    · exact hcount.trans hlen.symm
  | extInfo _ hnumber =>
    -- the first packet: nothing was opened before it
    obtain rfl : opened = [] := List.eq_nil_of_length_eq_zero (by omega)
    refine grammar_of_service hphase hreceived haccepted hidle.outcome hdone (fun _ => ⟨?_, ?_⟩)
      (by simp [hidle.pendingOutcome])
    · rw [numbers_snoc, hnumber]
      exact mem_mul_of_nil_mem (.inr rfl) (nil_mem_kstar _)
    · exact hcount.trans hlen.symm
  | accept _ _ _ _ _ hnumber =>
    refine grammar_of_service hphase hreceived haccepted hidle.outcome hdone (by simp) fun _ => ?_
    rw [numbers_snoc, hnumber]
    exact append_mem_mul hread rfl
  | rekey =>
    exact grammar_of_service hphase hreceived haccepted hidle.outcome hdone (by simp) (by simp)
  | sealFailed =>
    refine grammar_of_finished rfl (fun _ => hdone) (fun hnot => ?_) (by simp [State.finish])
    exact absurd (hnot.symm.trans hreceived) (by decide)

/-! ### Moves -/

theorem Handled.packets (h : Handled C u payload s s') :
    s'.hist.received = s.hist.received ∧ s'.hist.opened = s.hist.opened := by
  cases h with
  | failed h => rw [h.hist]; exact ⟨rfl, rfl⟩
  | _ => exact ⟨rfl, rfl⟩

theorem HandledProtected.packets (h : HandledProtected C u payload s s') :
    s'.hist.received = s.hist.received ∧ s'.hist.opened = s.hist.opened := by
  cases h with
  | failed h => rw [h.hist]; exact ⟨rfl, rfl⟩
  | _ => exact ⟨rfl, rfl⟩

/-- **Every move keeps the invariant.** -/
theorem Grammar.move (h : Grammar s.hist.received s.hist.opened s) (hs : Basic s)
    (hv : Verification C u s) (hseq : Sequence C 0 s) (hm : Move C u s s') :
    Grammar s'.hist.received s'.hist.opened s' := by
  have hlate (hphase : s.phase = .service) : s.newkeysReceived = true :=
    (hs.received_iff (by rw [hphase]; decide)).mpr hphase
  have hearly (hne : s.phase ≠ .finished) (hnot : s.phase ≠ .service) : s.hist.opened = [] := by
    refine h.unopened ?_
    rw [← Bool.not_eq_true, hs.received_iff hne]
    exact hnot
  have hs' := hs.move hm
  cases hm with
  | takeOutput | prelude => exact { h with }
  | failed hnone hf =>
    rw [hf.hist]
    exact grammar_of_failed hs (hs.phase_ne hnone) h.done h.unopened hf
  | distrust | badPadding =>
    exact grammar_of_finished rfl h.done h.unopened (by simp [State.finish])
  | trust _ _ _ _ hphase =>
    have hne : s.phase ≠ .finished := by rw [hphase]; decide
    have hopened := hearly hne (by rw [hphase]; decide)
    have hpending : s.pendingOutcome = none := by
      rw [Option.eq_none_iff_forall_ne_some]
      intro o ho
      have := (hs.pending o ho).1
      rw [hphase] at this
      cases this
    change Grammar s.hist.received s.hist.opened _
    rw [hopened]
    refine grammar_of_kex hs' (hs.outcome_eq_none hne) hpending (.inr (.inr rfl)) fun n hn => ?_
    obtain ⟨hread, hdiscarded, hskipped⟩ := h.kex (.inr (.inl hphase)) n hn
    rw [hphase] at hread
    exact ⟨mem_mul_of_nil_mem hread (nil_mem_skips _), hdiscarded, hskipped⟩
  | adopt _ _ _ hpending =>
    refine grammar_of_finished rfl h.done h.unopened ?_
    rintro (hnot | houtcome)
    · cases hnot
    · cases houtcome
      exact h.completed (.inl hpending)
  | identified ident _ hidle hphase =>
    obtain ⟨hnil, hskipped, hguess⟩ := h.ident hphase
    have hopened := hearly (hs.phase_ne hidle.outcome) (by rw [hphase]; decide)
    change Grammar s.hist.received s.hist.opened _
    rw [hopened]
    refine grammar_of_kexinit hs' hidle.outcome hidle.pendingOutcome rfl ⟨?_, ?_, hguess⟩
    · rw [hnil]
      exact nil_mem_skips false
    · exact (congrArg List.length hskipped).trans (congrArg List.length hnil).symm
  | unprotected payload bytes hidle hphase _ _ _ hh =>
    have hne := hs.phase_ne hidle.outcome
    have hopened := hearly hne (by intro hservice; rw [hservice] at hphase; cases hphase)
    obtain ⟨hreceived', hopened'⟩ := hh.packets
    rw [hreceived', hopened']
    change Grammar (s.hist.received ++ [payload]) s.hist.opened s'
    rw [hopened] at h ⊢
    have htaken : Grammar s.hist.received [] (s.take payload bytes).count := { h with }
    have hv' : Verification C u (s.take payload bytes).count :=
      hv.same { received := List.subset_append_left _ _ } rfl rfl
    exact htaken.handled (hs.taken payload bytes)
      { hidle with } hv' (hseq.taken hs hphase bytes) rfl hphase hh
  | wrapped _ _ _ hphase hwrap =>
    exact absurd hwrap (hseq.not_wraps hs hphase)
  | overBudget _ _ _ _ hphase =>
    refine grammar_of_finished rfl h.done (fun hnot => ?_) (by simp [State.finish])
    exact absurd (hnot.symm.trans (hlate hphase)) (by decide)
  | protectedPacket a havail payload hidle hphase _ _ _ _ hh =>
    obtain ⟨hread, hcount⟩ := h.service hphase hidle.pendingOutcome
    obtain ⟨hreceived', hopened'⟩ := hh.packets
    rw [hreceived', hopened']
    refine Grammar.handledProtected (hs.opened a (a.advance havail) payload)
      { hidle with } hphase ?_ (h.done (hlate hphase)) hread
      (congrArg (· + 1) hcount) hh
    exact List.append_ne_nil_of_right_ne_nil _ (List.cons_ne_nil _ _)
  | wrappedProtected _ _ _ _ hphase =>
    refine grammar_of_finished rfl h.done (fun hnot => ?_) (by simp [State.finish, State.wrapped])
    exact absurd (hnot.symm.trans (hlate hphase)) (by decide)

theorem Built.grammar {config : HandshakeConfig} {provider : Option SignatureProvider}
    {h : ClientHandshake} (hb : Built C config provider h) :
    Grammar h.state.hist.received h.state.hist.opened h.state := by
  obtain ⟨_, _, _, _, _, -, -, -, -, hstate⟩ := hb.start
  rw [hstate]
  constructor
  all_goals simp [initialState, State.queueLine, State.queueFramed]

/-- The invariant holds in every state a run reaches. -/
theorem run_grammar {config : HandshakeConfig} {provider : Option SignatureProvider}
    {h h' : ClientHandshake} {events : List Event} (hb : Built C config provider h)
    (hrun : Run (Calls C) h events h') :
    Grammar h'.state.hist.received h'.state.hist.opened h'.state := by
  refine (run_invariant hrun hb.basic (I := fun t => (Verification C h.setup t ∧
    Output C h.setup t ∧ Sequence C 0 t) ∧ Grammar t.hist.received t.hist.opened t)
    ⟨⟨hb.verification, hb.output, hb.sequence⟩, hb.grammar⟩ ?_).2
  rintro t t' ht ⟨⟨hv, ho, hseq⟩, hg⟩ hm
  exact ⟨⟨hv.move hm, ho.move ht hv hm, hseq.move ht ho hv hm⟩, hg.move ht hv hseq hm⟩

/-! ### Leaving the language -/

/-- What was received can still become a key exchange, with the parameters that were negotiated if
any were. -/
def Admissible (s : State) : Prop :=
  ∃ strict wrong,
    (∀ n, s.negotiated = some n → strict = n.strictKex.negotiated ∧ wrong = n.serverGuessWrong) ∧
    (kexLanguage strict wrong).Viable (numbers s.hist.received)

theorem viable_guessed (wrong : Bool) : (guessed wrong).Viable [] := by
  cases wrong with
  | false => exact ⟨[], rfl⟩
  | true => exact ⟨[some 30], ⟨some 30, ⟨30, rfl, by decide⟩, rfl⟩⟩

theorem viable_skips (strict : Bool) : (skips strict).Viable [] := ⟨[], nil_mem_skips strict⟩

theorem viable_message (number : UInt8) : (message number).Viable [] := ⟨[some number], rfl⟩

/-- What is read up to the reply can be completed. -/
theorem viable_of_throughReply (h : (throughReply strict wrong).Viable w) :
    (kexLanguage strict wrong).Viable w :=
  (h.mul (viable_skips strict)).mul (viable_message _)

/-- What is read up to the `KEXINIT` can be completed. -/
theorem viable_of_throughKexInit (h : (throughKexInit strict).Viable w) :
    (kexLanguage strict wrong).Viable w :=
  viable_of_throughReply (((h.mul (viable_guessed wrong)).mul (viable_skips strict)).mul
    (viable_message _))

/-- What a phase has read can be completed. -/
theorem Phase.viable_of_mem_language {phase : Phase} {discarded : Bool}
    (h : w ∈ phase.language strict wrong discarded) : (kexLanguage strict wrong).Viable w := by
  cases phase with
  | ecdhReply =>
    cases discarded with
    | false => exact viable_of_throughKexInit (viable_of_mem h)
    | true =>
      exact viable_of_throughReply ((viable_of_mem h).mul (viable_message _))
  | trustDecision => exact viable_of_throughReply (viable_of_mem h)
  | serverNewKeys => exact (viable_of_mem h).mul (viable_message _)
  | _ => exact absurd h (notMem_zero w)

/-- A machine without an outcome has not left the language of the key exchange. -/
theorem Grammar.admissible (h : Grammar s.hist.received s.hist.opened s) (hs : Basic s)
    (hv : Verification C u s) (hnone : s.outcome = none) : Admissible s := by
  have hne := hs.phase_ne hnone
  -- once negotiated, the parameters are those of the negotiation
  have hafter (hneg : s.phase = .ecdhReply ∨ s.hist.verified ≠ none)
      (hread : ∀ n, s.negotiated = some n →
        (kexLanguage n.strictKex.negotiated n.serverGuessWrong).Viable (numbers s.hist.received)) :
      Admissible s := by
    obtain ⟨n, _, _, _, hn⟩ := hv.negotiated hneg
    refine ⟨n.strictKex.negotiated, n.serverGuessWrong, fun n' hn' => ?_, hread n hn.stored⟩
    obtain rfl : n = n' := Option.some.inj (hn.stored.symm.trans hn')
    exact ⟨rfl, rfl⟩
  -- before that, nothing but skipped messages was received
  have hbefore (hneg : s.negotiated = none) (hread : numbers s.hist.received ∈ skips false) :
      Admissible s := by
    refine ⟨false, false, by simp [hneg], viable_of_throughKexInit ?_⟩
    exact ((viable_of_mem hread).mul (viable_message _)).mul (viable_skips false)
  cases hphase : s.phase with
  | serverIdentification =>
    refine hbefore (hv.early (.inl hphase)).1 ?_
    rw [(h.ident hphase).1]
    exact nil_mem_skips false
  | serverKexInit => exact hbefore (hv.early (.inr hphase)).1 (h.kexinit hphase).1
  | ecdhReply =>
    exact hafter (.inl hphase) fun n hn =>
      Phase.viable_of_mem_language (h.kex (.inl hphase) n hn).1
  | trustDecision =>
    exact hafter (.inr (hv.known (.inl hphase))) fun n hn =>
      Phase.viable_of_mem_language (h.kex (.inr (.inl hphase)) n hn).1
  | serverNewKeys =>
    exact hafter (.inr (hv.known (.inr (.inl hphase)))) fun n hn =>
      Phase.viable_of_mem_language (h.kex (.inr (.inr hphase)) n hn).1
  | service =>
    exact hafter (.inr (hv.known (.inr (.inr hphase)))) fun n hn =>
      viable_of_mem (h.done ((hs.received_iff hne).mpr hphase) n hn)
  | finished => exact absurd hphase hne

/-- A machine without an outcome has not left the language of protected packets, unless it is about
to end for a re-exchange request. -/
theorem Grammar.viable_opened (h : Grammar s.hist.received s.hist.opened s) (hs : Basic s)
    (hnone : s.outcome = none) (hrekey : s.pendingOutcome ≠ some .rekeyNotSupported) :
    serviceLanguage.Viable (numbers s.hist.opened) := by
  have hne := hs.phase_ne hnone
  by_cases hphase : s.phase = .service
  swap
  · rw [h.unopened (by rw [← Bool.not_eq_true, hs.received_iff hne]; exact hphase)]
    refine Language.Viable.mul ?_ (viable_message _)
    exact ⟨[], mem_mul_of_nil_mem (.inl rfl) (nil_mem_kstar _)⟩
  cases hpending : s.pendingOutcome with
  | none =>
    exact (viable_of_mem (h.service hphase hpending).1).mul (viable_message _)
  | some o =>
    have hdeliberate := (hs.pending o hpending).2
    cases o with
    | completed => exact viable_of_mem (h.completed (.inl hpending))
    | rekeyNotSupported => exact absurd hpending hrekey
    | _ => cases hdeliberate

/-! ### The end -/

/-- A machine that is at its end, and not a completed one. -/
structure Ends (C : Crypto) (h : ClientHandshake) : Prop where
  /-- Once its output is taken, `step` reports an outcome other than completion. -/
  reported : ∃ o h₁, o ≠ .completed ∧ h.takeOutput.2.step C = .ok (.finished o, h₁)
  /-- Whatever is called from now on, no packet is examined and nothing completes. -/
  blind : ∀ more h'', Run (Calls C) h more h'' →
    h''.state.hist.received = h.state.hist.received ∧
      h''.state.hist.opened = h.state.hist.opened ∧ h''.state.outcome ≠ some .completed

/-- A machine with an outcome other than completion is at its end. -/
theorem ends_of_outcome {h : ClientHandshake} {o : HandshakeOutcome} (hs : Basic h.state)
    (ho : h.state.outcome = some o) (hne : o ≠ .completed) : Ends C h where
  reported := ⟨o, _, hne, step_of_outcome (h := h.takeOutput.2) ho⟩
  blind := by
    intro more h'' hrun
    rw [((run_effect hs hrun).2.1.settled hs ho).state_eq]
    exact ⟨rfl, rfl, by rw [ho]; simpa using hne⟩

/-- With an outcome pending, the machine only hands out its output, ends or fails. -/
theorem Move.of_pending {o : HandshakeOutcome} (hm : Move C u s s') (hs : Basic s)
    (hpending : s.pendingOutcome = some o) :
    s'.hist.received = s.hist.received ∧ s'.hist.opened = s.hist.opened ∧
      (s'.pendingOutcome = some o ∧ s'.outcome = s.outcome ∨
        ∃ o', s'.outcome = some o' ∧ (o' = o ∨ o'.isFailure = true)) := by
  have hbusy (hidle : s.Idle) : False := by
    have := hidle.pendingOutcome
    rw [hpending] at this
    cases this
  have hask : s.phase ≠ .trustDecision := by
    rw [(hs.pending o hpending).1]
    decide
  cases hm with
  | takeOutput => exact ⟨rfl, rfl, .inl ⟨hpending, rfl⟩⟩
  | failed _ hf =>
    obtain ⟨o', ho', hfail⟩ := hf.outcome
    rw [hf.hist]
    exact ⟨rfl, rfl, .inr ⟨o', ho', .inr hfail⟩⟩
  | distrust _ hphase | trust _ _ _ _ hphase => exact absurd hphase hask
  | adopt o' _ _ hpending' =>
    obtain rfl : o' = o := Option.some.inj (hpending'.symm.trans hpending)
    exact ⟨rfl, rfl, .inr ⟨o', rfl, .inl rfl⟩⟩
  | prelude _ _ hidle | identified _ _ hidle | unprotected _ _ hidle | wrapped _ _ hidle
  | badPadding _ _ _ hidle | overBudget _ _ _ hidle | protectedPacket _ _ _ hidle
  | wrappedProtected _ _ _ hidle => exact (hbusy hidle).elim

/-- A machine about to end for a re-exchange request is at its end. -/
theorem ends_of_rekey {h : ClientHandshake} (hs : Basic h.state) (hnone : h.state.outcome = none)
    (hpending : h.state.pendingOutcome = some .rekeyNotSupported) : Ends C h where
  reported := ⟨.rekeyNotSupported, _, by decide,
    step_of_pendingOutcome (h := h.takeOutput.2) hnone rfl hpending⟩
  blind := by
    intro more h'' hrun
    have hinv := run_invariant hrun hs (I := fun t =>
      t.hist.received = h.state.hist.received ∧ t.hist.opened = h.state.hist.opened ∧
        (t.pendingOutcome = some .rekeyNotSupported ∧ t.outcome = none ∨
          ∃ o, t.outcome = some o ∧ o ≠ .completed))
      ⟨rfl, rfl, .inl ⟨hpending, hnone⟩⟩ ?_
    · obtain ⟨hreceived, hopened, hend⟩ := hinv
      refine ⟨hreceived, hopened, ?_⟩
      rcases hend with ⟨-, hnone'⟩ | ⟨o, ho, hne⟩
      · simp [hnone']
      · rw [ho]
        simpa using hne
    · rintro t t' ht ⟨hreceived, hopened, hend⟩ hm
      rcases hend with ⟨hpend, hnone'⟩ | ⟨o, ho, hne⟩
      · obtain ⟨hr, hop, hnext⟩ := hm.of_pending ht hpend
        refine ⟨hr.trans hreceived, hop.trans hopened, ?_⟩
        rcases hnext with ⟨hpend', hsame⟩ | ⟨o', ho', hwhich⟩
        · exact .inl ⟨hpend', hsame.trans hnone'⟩
        · refine .inr ⟨o', ho', ?_⟩
          rintro rfl
          rcases hwhich with hrekey | hfail
          · cases hrekey
          · cases hfail
      · have hdrained := hm.settled ht ho
        rw [hdrained.state_eq]
        exact ⟨hreceived, hopened, .inr ⟨o, ho, hne⟩⟩

/-! ### The accepted language -/

section Accepted

variable {ρ ε : Type} {tryFillBytes : (n : Nat) → ρ → Except ε (ByteVec n × ρ)}
  {config : HandshakeConfig} {rng : ρ} {provider : Option SignatureProvider}
  {h h' : ClientHandshake} {events : List Event}

/-- Under strict KEX the language has no skipped message. -/
theorem mem_kexLanguage_strict (hw : w ∈ kexLanguage true wrong) :
    ∃ g ∈ guessed wrong,
      w = some Msg.kexInit :: g ++ [some Msg.kexEcdhReply, some Msg.newKeys] := by
  have hone : skips true = 1 := rfl
  rw [kexLanguage, throughReply, throughKexInit, hone, one_mul, mul_one, mul_one, mul_one] at hw
  obtain ⟨_, hw₁, w₂, hw₂, rfl⟩ := mem_mul.mp hw
  obtain ⟨_, hw₃, w₄, hw₄, rfl⟩ := mem_mul.mp hw₁
  obtain ⟨w₅, hw₅, g, hg, rfl⟩ := mem_mul.mp hw₃
  obtain rfl : w₂ = [some Msg.newKeys] := hw₂
  obtain rfl : w₄ = [some Msg.kexEcdhReply] := hw₄
  obtain rfl : w₅ = [some Msg.kexInit] := hw₅
  exact ⟨g, hg, by simp⟩

/-- A machine that received or opened something outside the language is at its end. -/
theorem ends_of_outside (hb : Built C config provider h) (hrun : Run (Calls C) h events h')
    (hout : ¬Admissible h'.state ∨ ¬serviceLanguage.Viable (numbers h'.state.hist.opened)) :
    Ends C h' := by
  have hs := run_basic hb hrun
  have hg := run_grammar hb hrun
  have hinv := run_invariants hb hrun
  cases ho : h'.state.outcome with
  | some =>
    refine ends_of_outcome hs ho ?_
    rintro rfl
    -- a completed handshake is inside both languages
    have hreceived := (hinv.completion.accepted (.inr ho)).1
    have hsent := hinv.output.sent_iff.mpr (by rw [(hinv.output.answered _ ho rfl).1]; decide)
    obtain ⟨v, _, hv, -, -⟩ := hinv.output.sealing hsent
    obtain ⟨n, _, _, _, hn⟩ := hinv.verification.negotiated (.inr (by rw [hv]; simp))
    rcases hout with hnot | hnot
    · refine hnot ⟨n.strictKex.negotiated, n.serverGuessWrong, fun n' hn' => ?_,
        viable_of_mem (hg.done hreceived n hn.stored)⟩
      obtain rfl : n = n' := Option.some.inj (hn.stored.symm.trans hn')
      exact ⟨rfl, rfl⟩
    · exact hnot (viable_of_mem (hg.completed (.inr ho)))
  | none =>
    by_cases hrekey : h'.state.pendingOutcome = some .rekeyNotSupported
    · exact ends_of_rekey hs ho hrekey
    · rcases hout with hnot | hnot
      · exact absurd (hg.admissible hs hinv.verification ho) hnot
      · exact absurd (hg.viable_opened hs ho hrekey) hnot

/-- **The accepted language of server packets.** In every run from `build`: a machine that has
reached the service phase has received a key exchange of the language, without a skipped message
under strict KEX; a completed one has opened exactly an optional `EXT_INFO`, skipped messages and
one `SERVICE_ACCEPT`; and one that received or opened anything outside is at its end. -/
theorem accepted_language (hb : build C tryFillBytes config rng provider = .ok (.ok h))
    (hrun : Run (Calls C) h events h') :
    (h'.phase = .service ∨ h'.state.newkeysReceived = true →
      ∃ n, h'.state.negotiated = some n ∧
        numbers h'.state.hist.received ∈ kexLanguage n.strictKex.negotiated n.serverGuessWrong ∧
        (n.strictKex.negotiated = true →
          (∃ g ∈ guessed n.serverGuessWrong, numbers h'.state.hist.received =
            some Msg.kexInit :: g ++ [some Msg.kexEcdhReply, some Msg.newKeys]) ∧
          (h'.phase = .service → h'.state.hist.accepted = [] → h'.state.skipped = []))) ∧
    (h'.state.outcome = some .completed → numbers h'.state.hist.opened ∈ serviceLanguage) ∧
    (¬Admissible h'.state ∨ ¬serviceLanguage.Viable (numbers h'.state.hist.opened) →
      Ends C h') := by
  have hbuilt := build_ok hb
  have hs := run_basic hbuilt hrun
  have hg := run_grammar hbuilt hrun
  have hinv := run_invariants hbuilt hrun
  refine ⟨fun hreached => ?_, fun ho => hg.completed (.inr ho), ends_of_outside hbuilt hrun⟩
  have hreceived : h'.state.newkeysReceived = true := by
    rcases hreached with hphase | hreceived
    · have hphase : h'.state.phase = .service := hphase
      exact (hs.received_iff (by rw [hphase]; decide)).mpr hphase
    · exact hreceived
  obtain ⟨v, _, hv, -, -, -⟩ := (run_sequence hbuilt hrun).receiving hreceived
  obtain ⟨n, _, _, _, hn⟩ := hinv.verification.negotiated (.inr (by rw [hv]; simp))
  have hmem := hg.done hreceived n hn.stored
  refine ⟨n, hn.stored, hmem, fun hstrict => ⟨?_, fun hphase hnone => ?_⟩⟩
  · rw [hstrict] at hmem
    exact mem_kexLanguage_strict hmem
  · exact hg.unskipped hphase hnone n hn.stored hstrict

/-- The reference handshake completes, with an opened packet sequence of the language. -/
theorem accepted_language_reference :
    ∃ events h', Run (Calls reference) Reference.client events h' ∧
      h'.state.outcome = some .completed ∧ numbers h'.state.hist.opened ∈ serviceLanguage := by
  obtain ⟨events, h', hrun, hdone⟩ := Reference.exists_run_completed
  exact ⟨events, h', hrun, hdone, (accepted_language Reference.build_client hrun).2.1 hdone⟩

end Accepted

end Tatami.Tcp
