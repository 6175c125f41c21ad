import Tatami.Tcp.FlowControl

/-! # The probe and the observer do not see how the input was cut

Sessions of a probe or an observer are runs on the whole stream, so that every way to cut it gives
the same events and the same outcome, but for what the outcome says about bytes that nothing looked
at: how many they are (`ProbeEnd.SameBut`, `ObservationOutcome.SameBut`) and, where an observer met
input that cannot start an identification, a sample of them. -/

namespace Tatami.Tcp

open Tatami.Wire Tatami.Reactor

/-! ### What may depend on the cutting -/

/-- Two outcomes of a probe that differ only by how many bytes had arrived. -/
inductive ProbeEnd.SameBut (arrived₁ arrived₂ : Bytes) : ProbeEnd → ProbeEnd → Prop where
  | same (ending : ProbeEnd) (h : ∀ p, ending ≠ .proposal p) :
      SameBut arrived₁ arrived₂ ending ending
  | proposal (p : Proposal) (examined : Nat) (h₁ : examined ≤ arrived₁.length)
      (h₂ : examined ≤ arrived₂.length) :
      SameBut arrived₁ arrived₂ (.proposal { p with unexaminedBytes := arrived₁.length - examined })
        (.proposal { p with unexaminedBytes := arrived₂.length - examined })

/-- An outcome of an observer that says nothing about bytes behind it. -/
def ObservationOutcome.Plain (outcome : ObservationOutcome) : Prop :=
  (∀ p, outcome ≠ .proposal p) ∧ ∀ sample truncated, outcome ≠ .unexpectedInput sample truncated

/-- Two outcomes of an observer that differ only by how many bytes had arrived. -/
inductive ObservationOutcome.SameBut (limit : Nat) (arrived₁ arrived₂ : Bytes) :
    ObservationOutcome → ObservationOutcome → Prop where
  | same (outcome : ObservationOutcome) (h : outcome.Plain) :
      SameBut limit arrived₁ arrived₂ outcome outcome
  | proposal (p : Proposal) (examined : Nat) (h₁ : examined ≤ arrived₁.length)
      (h₂ : examined ≤ arrived₂.length) :
      SameBut limit arrived₁ arrived₂
        (.proposal { p with unexaminedBytes := arrived₁.length - examined })
        (.proposal { p with unexaminedBytes := arrived₂.length - examined })
  | unexpected :
      SameBut limit arrived₁ arrived₂
        (.unexpectedInput (arrived₁.take limit) (decide (limit < arrived₁.length)))
        (.unexpectedInput (arrived₂.take limit) (decide (limit < arrived₂.length)))

variable {w : Bytes} {n : Nat}

/-! ### The probe -/

namespace Probe

/-- Verdicts of a look: the end of the input is none of them, and a proposal that is fixed is from
before. -/
theorem look_verdict {s : ProbeState} {v : ProbeVerdict} (h : look s w = .finished v n) :
    (∀ stage, v ≠ .eof stage) ∧ (s.ending = none → ∀ p, v ≠ .fixed (.proposal p)) := by
  obtain ⟨o, hend, hlook⟩ | ⟨-, ⟨-, hlook⟩ | ⟨-, step, packets, hstep, hlook⟩⟩ :=
    Front.look_found h nofun
  · cases hlook
    exact ⟨nofun, fun hnone => by cases hend.symm.trans hnone⟩
  · have hcases := lookLine_cases s w
    rw [show lookLine s w = _ from hlook] at hcases
    obtain ⟨-, e, rfl⟩ := hcases
    exact ⟨nofun, fun _ => nofun⟩
  · cases step with
    | needMore | skipped => cases hlook
    | _ =>
      cases hlook
      exact ⟨nofun, fun _ => nofun⟩

/-- Events are seen before there is an outcome, and leave it so. -/
theorem look_event {s s' : ProbeState} {e : ProbeEvent} (h : look s w = .event e s' n) :
    s'.ending = none := by
  obtain ⟨o, -, hlook⟩ | ⟨hend, ⟨-, hlook⟩ | ⟨-, step, packets, -, hlook⟩⟩ :=
    Front.look_found h nofun
  · cases hlook
  · have hcases := lookLine_cases s w
    rw [show lookLine s w = _ from hlook] at hcases
    exact hcases.2.2.1.trans hend
  · cases step with
    | skipped =>
      cases hlook
      exact hend
    | _ => cases hlook

/-- A run from a probe without an outcome does not come to a proposal from before. -/
theorem verdict_of_run {s : ProbeState} {events : List ProbeEvent} {v : ProbeVerdict}
    (hs : s.ending = none)
    (h : Whole (Watch.turn look) (Watch.ended fun s => .eof s.stage) ⟨s, [], 0⟩ w (events, n, v))
    (p : Proposal) : v ≠ .fixed (.proposal p) := by
  refine Watch.result (K := fun x => x.state.ending = none)
    (P := fun r => r.2.2 ≠ .fixed (.proposal p)) h hs ?_ ?_ ?_
  · intro x w e s n hx hlook
    exact look_event hlook
  · intro x w v n hx hlook
    exact (look_verdict hlook).2 hx p
  · intro x hx
    nofun

/-- The probe does not see how its input was cut. -/
theorem chunkIndependent {config : ProbeConfig} {p : Probe} (hmax : 4 ≤ config.ident.maxLine)
    (h : new config = .ok (.ok p)) : ChunkIndependent machine ProbeEnd.SameBut p := by
  obtain ⟨_, hcapacity, hkept, hheld, hstate⟩ := made h
  have hlines : 4 ≤ p.state.ident.limits.maxLine := hkept.ident ▸ hmax
  refine (machine_implements hcapacity).chunkIndependent front.look_steady hkept hlines hheld ?_
  intro stream events n v arrived₁ arrived₂ hrun h₁ h₂ hall
  cases v with
  | fixed ending =>
    refine .same ending fun proposal heq => ?_
    exact verdict_of_run (by rw [hstate]) hrun proposal (congrArg _ heq)
  | proposal kexinit payload =>
    have hproposal := ProbeEnd.SameBut.proposal (.fromKexinit kexinit payload 0) n h₁ h₂
    rwa [← List.length_drop, ← List.length_drop] at hproposal
  | eof stage =>
    rcases hall with rfl | ⟨s, w, k, hlook⟩
    · exact .same _ nofun
    · exact absurd rfl ((look_verdict hlook).1 stage)

end Probe

/-! ### The observer -/

namespace Observer

/-- The stage in which a line is looked for. -/
theorem clientIdentification_of_front {stage : ObserverStage} (h : stage.front = .line) :
    stage = .clientIdentification := by
  cases stage with
  | clientIdentification => rfl
  | _ => cases h

/-- Verdicts of a look: the end of the input is none of them, one that is fixed is an outcome from
before or says nothing about what follows, and a sample is taken of the first line only. -/
theorem look_verdict {s : ObserverState} {v : ObserverVerdict} (h : look s w = .finished v n) :
    match v with
    | .fixed outcome => s.ending = some outcome ∨ s.ending = none ∧ outcome.Plain
    | .proposal _ _ => True
    | .unexpected limit => s.stage = .clientIdentification ∧ s.ending = none ∧ n = 0 ∧
        limit = s.unexpectedSample
    | .eof _ => False := by
  obtain ⟨o, hend, hlook⟩ | ⟨hend, ⟨hstage, hlook⟩ | ⟨-, step, packets, hstep, hlook⟩⟩ :=
    Front.look_found h nofun
  · cases hlook
    exact .inl hend
  · have hcases := lookLine_cases s w
    rw [show lookLine s w = _ from hlook] at hcases
    obtain ⟨rfl, rfl | ⟨e, rfl⟩⟩ := hcases
    · exact ⟨clientIdentification_of_front hstage, hend, rfl, rfl⟩
    · exact .inr ⟨hend, nofun, nofun⟩
  · cases step with
    | needMore | skipped => cases hlook
    | kexInit =>
      cases hlook
      trivial
    | disconnect | error =>
      cases hlook
      exact .inr ⟨hend, nofun, nofun⟩

/-- Where an observer is after an event: behind the line, or finished in banner-only mode. -/
theorem look_event {s s' : ObserverState} {e : ObserverEvent} (h : look s w = .event e s' n) :
    s'.ending = none ∧ s'.stage ≠ .clientIdentification ∨ s'.ending = some .bannerOnly := by
  obtain ⟨o, -, hlook⟩ | ⟨hend, ⟨-, hlook⟩ | ⟨hstage, step, packets, -, hlook⟩⟩ :=
    Front.look_found h nofun
  · cases hlook
  · have hcases := lookLine_cases s w
    rw [show lookLine s w = _ from hlook] at hcases
    refine hcases.2.2.1.imp (fun ⟨hsame, hnext⟩ => ⟨hsame.trans hend, ?_⟩)
      (fun hclosed => hclosed.1)
    rw [hnext]
    nofun
  · cases step with
    | skipped =>
      cases hlook
      refine .inl ⟨hend, fun heq => ?_⟩
      have hline : s.stage = .clientIdentification := heq
      cases (congrArg ObserverStage.front hline).symm.trans hstage
    | _ => cases hlook

/-- The verdicts of a fresh observer. -/
def Fresh (limit used : Nat) : ObserverVerdict → Prop
  | .fixed outcome => outcome.Plain
  | .unexpected k => used = 0 ∧ k = limit
  | _ => True

/-- What the run of a fresh observer comes to: a sample is taken before anything was used up. -/
theorem verdict_of_run {s : ObserverState} {events : List ObserverEvent} {v : ObserverVerdict}
    (hs : s.ending = none)
    (h : Whole (Watch.turn look) (Watch.ended fun s => .eof s.stage) ⟨s, [], 0⟩ w (events, n, v)) :
    Fresh s.unexpectedSample n v := by
  refine Watch.result (K := fun x => (x.state.ending = none ∧
      (x.state.stage = .clientIdentification →
        x.used = 0 ∧ x.state.unexpectedSample = s.unexpectedSample)) ∨
      x.state.ending = some .bannerOnly)
    (P := fun r => Fresh s.unexpectedSample r.2.1 r.2.2) h (.inl ⟨hs, fun _ => ⟨rfl, rfl⟩⟩) ?_ ?_ ?_
  · intro x w e s n hx hlook
    exact (look_event hlook).imp_left fun ⟨hend, hstage⟩ => ⟨hend, fun heq => absurd heq hstage⟩
  · intro x w v n hx hlook
    have hverdict := look_verdict hlook
    cases v with
    | fixed =>
      rcases hverdict with hsome | ⟨-, hplain⟩
      · rcases hx with ⟨hnone, -⟩ | hbanner
        · cases hsome.symm.trans hnone
        · cases hsome.symm.trans hbanner
          exact ⟨nofun, nofun⟩
      · exact hplain
    | proposal => trivial
    | unexpected =>
      obtain ⟨hstage, hnone, rfl, rfl⟩ := hverdict
      rcases hx with ⟨-, hfirst⟩ | hbanner
      · exact hfirst hstage
      · cases hbanner.symm.trans hnone
    | eof => trivial
  · intro x hx
    trivial

/-- The observer does not see how its input was cut. -/
theorem chunkIndependent {config : ObserverConfig} {o : Observer}
    (hmax : 4 ≤ config.maxIdentificationLine.toNat) (h : new config = .ok (.ok o)) :
    ChunkIndependent machine (ObservationOutcome.SameBut config.unexpectedSample.toNat) o := by
  obtain ⟨_, hcapacity, hkept, hheld, hstate⟩ := made h
  have hlines : 4 ≤ o.state.ident.limits.maxLine := by
    rw [show o.state.ident.limits = _ from hkept.ident]
    exact Nat.le_trans hmax (Nat.le_max_left _ _)
  refine (machine_implements hcapacity).chunkIndependent front.look_steady hkept hlines hheld ?_
  intro stream events n v arrived₁ arrived₂ hrun h₁ h₂ hall
  have hfresh := verdict_of_run (by rw [hstate]) hrun
  rw [hstate] at hfresh
  cases v with
  | fixed outcome => exact .same outcome hfresh
  | proposal kexinit payload =>
    have hproposal :
        ObservationOutcome.SameBut config.unexpectedSample.toNat arrived₁ arrived₂ _ _ :=
      .proposal (.fromKexinit kexinit payload 0) n h₁ h₂
    rwa [← List.length_drop, ← List.length_drop] at hproposal
  | unexpected =>
    obtain ⟨rfl, rfl⟩ := hfresh
    exact .unexpected
  | eof =>
    rcases hall with rfl | ⟨s, w, k, hlook⟩
    · exact .same _ ⟨by rintro _ ⟨⟩, by rintro _ _ ⟨⟩⟩
    · exact (look_verdict hlook).elim

/-- Samples of one stream are beginnings of it, and one is a beginning of the other. -/
theorem samples_of_one_stream {o o₁ o₂ : Observer} {limit : Nat} {pieces₁ pieces₂ : List Bytes}
    {events₁ events₂ : List ObserverEvent} {sample₁ sample₂ : Bytes} {truncated₁ truncated₂ : Bool}
    {arrived₁ arrived₂ : Bytes}
    (hindependent : ChunkIndependent machine (ObservationOutcome.SameBut limit) o)
    (h₁ : machine.Session o pieces₁ events₁ (.unexpectedInput sample₁ truncated₁) arrived₁ o₁)
    (h₂ : machine.Session o pieces₂ events₂ (.unexpectedInput sample₂ truncated₂) arrived₂ o₂)
    (hstream : pieces₁.flatten = pieces₂.flatten) :
    sample₁ <+: pieces₁.flatten ∧ sample₂ <+: pieces₁.flatten ∧
      (sample₁ <+: sample₂ ∨ sample₂ <+: sample₁) := by
  have harrived₁ := hindependent.arrived h₁
  have harrived₂ := hindependent.arrived h₂
  rw [← hstream] at harrived₂
  have hsame := (hindependent.agree h₁ h₂ hstream).2
  cases hsame with
  | same _ hplain => exact absurd rfl (hplain.2 sample₁ truncated₁)
  | unexpected =>
    have hle₁ := (List.take_prefix limit arrived₁).trans harrived₁
    have hle₂ := (List.take_prefix limit arrived₂).trans harrived₂
    exact ⟨hle₁, hle₂, List.prefix_or_prefix_of_prefix hle₁ hle₂⟩

end Observer

/-! ### Both -/

/-- **The probe and the observer are chunk independent.** With room for the four bytes of `SSH-`,
every stream and any two ways to cut it into pieces within the room: the events are the same, the
outcomes differ only by how many bytes had arrived, and they stay. No call of an observer gets to
the arm for prelude lines, or panics otherwise. -/
theorem chunk_independence :
    (∀ {config : ProbeConfig} {p : Probe},
      4 ≤ max config.ident.maxPreludeLine.toNat config.ident.maxIdentificationLine.toNat →
      Probe.new config = .ok (.ok p) → ChunkIndependent Probe.machine ProbeEnd.SameBut p) ∧
    (∀ {config : ObserverConfig} {o : Observer}, 4 ≤ config.maxIdentificationLine.toNat →
      Observer.new config = .ok (.ok o) →
      ChunkIndependent Observer.machine
        (ObservationOutcome.SameBut config.unexpectedSample.toNat) o ∧
      (∀ {o₁ o₂ : Observer} {pieces₁ pieces₂ : List Bytes} {events₁ events₂ : List ObserverEvent}
        {sample₁ sample₂ : Bytes} {truncated₁ truncated₂ : Bool} {arrived₁ arrived₂ : Bytes},
        Observer.machine.Session o pieces₁ events₁ (.unexpectedInput sample₁ truncated₁)
          arrived₁ o₁ →
        Observer.machine.Session o pieces₂ events₂ (.unexpectedInput sample₂ truncated₂)
          arrived₂ o₂ →
        pieces₁.flatten = pieces₂.flatten →
        sample₁ <+: pieces₁.flatten ∧ sample₂ <+: pieces₁.flatten ∧
          (sample₁ <+: sample₂ ∨ sample₂ <+: sample₁)) ∧
      ∀ {calls : List Observer.Call} {o' : Observer}, Run Observer.Calls o calls o' →
        ∃ answer o'', o'.step = .ok (answer, o'')) := by
  refine ⟨fun hmax h => Probe.chunkIndependent hmax h, fun hmax h => ?_⟩
  have hindependent := Observer.chunkIndependent hmax h
  refine ⟨hindependent, Observer.samples_of_one_stream hindependent, fun hrun => ?_⟩
  obtain ⟨_, _, hmade, -⟩ := Observer.made h
  rw [Observer.Calls, Observer.machine_eq] at hrun
  have hkept := hrun.invariant hmade fun hs hcall => hs.call hcall
  obtain ⟨answer, o'', hstep, -⟩ := hkept.step
  rw [← Observer.machine_eq] at hstep
  exact ⟨answer, o'', hstep⟩

namespace Reference

/-- The line and the `KEXINIT` of the server. -/
def serverHello : Bytes := serverLine ++ [0x0d, 0x0a] ++ framed serverKexInit

/-- The line, as reported. -/
def serverIdentification : OwnedIdentification :=
  ⟨serverLine, .crLf, "2.0", "reference_1.0", none, .ssh2⟩

/-- The `KEXINIT`, as reported with `n` bytes behind it. -/
def serverProposal (n : Nat) : Proposal where
  kexinit := ⟨⟨List.replicate 16 4, List.length_replicate⟩,
    ["curve25519-sha256", "kex-strict-s-v00@openssh.com"], ["ssh-ed25519"],
    ["aes128-gcm@openssh.com"], ["aes128-gcm@openssh.com"], ["hmac-sha2-256"], ["hmac-sha2-256"],
    ["none"], ["none"], [], [], false, 0⟩
  rawPayload := serverKexInit
  anomalies := []
  unexaminedBytes := n

end Reference

/-- A session with what it reports and comes to, by evaluation. -/
theorem exists_session_of_serve {μ ε ω : Type} {A : Machine μ UInt8 ε ω} (fuel : Nat) {m : μ}
    {pieces : List Bytes} {events : List ε} {o : ω}
    (h : (A.serve fuel m pieces).map (fun r => (r.1, r.2.1)) = some (events, o)) :
    ∃ arrived m', A.Session m pieces events o arrived m' := by
  obtain ⟨⟨_, _, arrived, m'⟩, hserve, heq⟩ := Option.map_eq_some_iff.mp h
  cases heq
  exact ⟨arrived, m', Machine.session_of_serve hserve⟩

/-- A probe and an observer of the default configurations, each with two sessions on one stream: the
server's hello with three bytes behind it, and a request of another protocol. -/
theorem chunk_independence_default :
    (∃ p, Probe.new .default = .ok (.ok p) ∧ ChunkIndependent Probe.machine ProbeEnd.SameBut p ∧
      (∃ arrived p', Probe.machine.Session p [Reference.serverHello ++ [1, 2, 3]]
        [.serverIdentification Reference.serverIdentification]
        (.proposal (Reference.serverProposal 3)) arrived p') ∧
      ∃ arrived p', Probe.machine.Session p (Reference.serverHello.map ([·]) ++ [[1], [2, 3]])
        [.serverIdentification Reference.serverIdentification]
        (.proposal (Reference.serverProposal 0)) arrived p') ∧
    ∃ o, Observer.new .default = .ok (.ok o) ∧
      ChunkIndependent Observer.machine (ObservationOutcome.SameBut 256) o ∧
      (∃ arrived o', Observer.machine.Session o [utf8 "GET / HTTP/1.1"] []
        (.unexpectedInput (utf8 "GET / HTTP/1.1") false) arrived o') ∧
      ∃ arrived o', Observer.machine.Session o [utf8 "GET", utf8 " / HTTP/1.1"] []
        (.unexpectedInput (utf8 "GET") false) arrived o' := by
  have hprobe : 4 ≤ max ProbeConfig.default.ident.maxPreludeLine.toNat
      ProbeConfig.default.ident.maxIdentificationLine.toNat := by decide
  have hobserver : 4 ≤ ObserverConfig.default.maxIdentificationLine.toNat := by decide
  refine ⟨⟨_, rfl, chunk_independence.1 hprobe rfl, ?_, ?_⟩, _, rfl,
    (chunk_independence.2 hobserver rfl).1, ?_, ?_⟩
  · exact exists_session_of_serve 10 (by decide +kernel)
  · exact exists_session_of_serve 1000 (by decide +kernel)
  · exact exists_session_of_serve 10 (by decide +kernel)
  · exact exists_session_of_serve 10 (by decide +kernel)

end Tatami.Tcp
