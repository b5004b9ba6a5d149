import PathMtu.Proofs.ConfirmedBound
import PathMtu.Proofs.EventLoop

namespace PathMtu

namespace Simulation

variable {σ : Type}

theorem roundTrip_nonneg (sim : Simulation σ) : 0 ≤ sim.roundTrip :=
  Int.mul_nonneg (Int.natCast_nonneg _) (by decide)

/-- What is under way: nothing, and then no answered probe waits, or the answer that the outstanding
probe waits for. -/
inductive UnderWay (e : Exchange σ) (sim : Simulation σ) : Prop
  | nothing : sim.inFlight = [] → (∀ probe ∈ e.session.outstanding, ¬e.LatestAnswered) →
      UnderWay e sim
  | answer {probe : Outstanding} {t : Trial} : e.session.outstanding = some probe →
      e.trials.head? = some t → t.fate = .delivered →
      sim.inFlight = [⟨probe.sentAt + sim.roundTrip, t.probe.reply⟩] →
      sim.now ≤ probe.sentAt + sim.roundTrip → UnderWay e sim

structure Mirrors (e : Exchange σ) (sim : Simulation σ) : Prop where
  session : e.session = sim.session
  path : e.path = sim.path
  underWay : UnderWay e sim

/-- A tick of the loop is patient: an answer takes one round trip, and a probe is given up after no
less than two. -/
theorem Mirrors.patient {e : Exchange σ} {sim : Simulation σ} (h : Mirrors e sim) :
    e.Patient (.call (.tick sim.now (2 * sim.roundTrip))) := by
  intro probe hprobe hanswered
  cases h.underWay with
  | nothing _ hwait => exact absurd hanswered (hwait probe hprobe)
  | answer ho _ _ _ hdue =>
    cases Option.some.inj (ho.symm.trans hprobe)
    have hrtt := sim.roundTrip_nonneg
    unfold probeTimeout
    omega

/-- A tick begins before a reply that is due at the same time, or after it. -/
theorem Mirrors.ticked {e : Exchange σ} {sim : Simulation σ} (h : Mirrors e sim)
    (first : ∀ flight ∈ sim.inFlight, sim.ticked.now ≤ flight.due) : Mirrors e sim.ticked := by
  refine ⟨h.session, h.path, ?_⟩
  cases h.underWay with
  | nothing hflight hwait => exact .nothing hflight hwait
  | answer ho ht hfate hflight _ =>
    rw [hflight] at first
    exact .answer ho ht hfate hflight (first _ (List.mem_singleton_self _))

variable [RandomSource σ]

theorem Mirrors.serve_none {e : Exchange σ} {sim : Simulation σ} (h : Mirrors e sim)
    {after : Session σ} (hc : e.session.TickCase sim.now (2 * sim.roundTrip) after none)
    {lines : Array Line} :
    Mirrors { e with session := after } { sim with session := after, lines } := by
  refine ⟨rfl, h.path, ?_⟩
  have hpatient := h.patient
  cases h.underWay with
  | nothing hflight hwait =>
    refine .nothing hflight ?_
    intro probe hprobe
    cases hc with
    | expired => cases hprobe
    | _ => exact hwait probe hprobe
  | @answer probe t ho ht hfate hflight hdue =>
    have hanswered : e.LatestAnswered := by
      unfold Exchange.LatestAnswered
      rw [ht, Option.map_some, hfate]
    cases hc with
    | disabled => exact .answer ho ht hfate hflight hdue
    | waiting => exact .answer ho ht hfate hflight hdue
    | expired _ ho' hlate =>
      have := hpatient _ ho' hanswered
      omega
    | settled _ ho' _ => cases ho.symm.trans ho'
    | early _ ho' _ _ => cases ho.symm.trans ho'

/-- A new probe is the latest trial, and its answer is under way if it was delivered. -/
theorem Mirrors.serve_some {e : Exchange σ} {sim : Simulation σ} (h : Mirrors e sim)
    {after : Session σ} {probe : Probe}
    (hc : e.session.TickCase sim.now (2 * sim.roundTrip) after (some probe))
    {lines : Array Line} :
    Mirrors (({ e with session := after } : Exchange σ).send probe)
      (({ sim with session := after, lines } : Simulation σ).send probe sim.now) := by
  have hrtt := sim.roundTrip_nonneg
  cases hc with
  | issued _ ho _ _ =>
    have hflight : sim.inFlight = [] := by
      cases h.underWay with
      | nothing hflight _ => exact hflight
      | answer ho' => cases ho.symm.trans ho'
    refine ⟨rfl, ?_, ?_⟩
    · show (e.path.deliver _).2 = (sim.path.deliver _).2
      rw [h.path]
    · by_cases hfate : e.path.fate (e.session.clamp.issue sim.now).answer = .delivered
      · refine .answer rfl rfl hfate ?_ ?_
        · show sim.inFlight ++ (((sim.path.deliver _).1).map _).toList = _
          rw [hflight, ← h.path]
          simp only [Path.deliver, if_pos hfate]
          rfl
        · show sim.now ≤ sim.now + sim.roundTrip
          omega
      · refine .nothing ?_ ?_
        · show sim.inFlight ++ (((sim.path.deliver _).1).map _).toList = _
          rw [hflight, ← h.path]
          simp only [Path.deliver, if_neg hfate]
          rfl
        · intro _ _ hanswered
          exact hfate (Option.some.inj hanswered)

theorem Mirrors.serve {e first : Exchange σ} {sim : Simulation σ} (h : Mirrors e sim)
    (run : Exchange.Reach Exchange.Patient first e) :
    ∃ e', Exchange.Reach Exchange.Patient first e' ∧ Mirrors e' sim.serve := by
  refine ⟨_, run.next h.patient, ?_⟩
  have hc := Session.tick_case e.session sim.now (2 * sim.roundTrip)
  have hs : sim.session.tick sim.now (2 * sim.roundTrip) =
      e.session.tick sim.now (2 * sim.roundTrip) := by rw [h.session]
  show Mirrors (e.follow (e.session.tick sim.now (2 * sim.roundTrip)).session
    (.probe (e.session.tick sim.now (2 * sim.roundTrip)).answer)) sim.serve
  cases ha : (e.session.tick sim.now (2 * sim.roundTrip)).answer with
  | none =>
    rw [ha] at hc
    rw [serve_of_none (by rw [hs]; exact ha), hs]
    exact h.serve_none hc
  | some probe =>
    rw [ha] at hc
    rw [serve_of_some (by rw [hs]; exact ha), hs]
    exact h.serve_some hc

end Simulation

namespace Loop

open Simulation (Mirrors)

variable {σ : Type}

/-- What a handler finds. A reply that arrives is the one that the outstanding probe waits for, and
nothing else is under way. A tick comes one interval after the latest one and no later than a
reply. -/
inductive HandlerCase [RandomSource σ] (loop : Loop σ) : Loop σ → Prop
  | reply {probe : Outstanding} {flight : Flight} : loop.sim.session.outstanding = some probe →
      loop.sim.session.Expects flight.reply → flight.reply.size = probe.candidate →
      flight.due = probe.sentAt + loop.sim.roundTrip → loop.sim.now ≤ flight.due →
      loop.sim.inFlight = [flight] → HandlerCase loop (loop.onReply flight)
  | tick : (∀ flight ∈ loop.sim.inFlight, loop.sim.ticked.now ≤ flight.due) →
      HandlerCase loop (resume loop.sim.ticked.serve)

theorem onReply_sim {loop : Loop σ} {flight : Flight} (h : loop.sim.inFlight = [flight]) :
    (loop.onReply flight).sim =
      ({ loop.sim with inFlight := [] } : Simulation σ).arrive flight := by
  have hnone : loop.sim.inFlight.erase flight = [] := by
    rw [h]
    exact List.erase_cons_head flight []
  unfold onReply
  rw [hnone]

theorem onReply_session {loop : Loop σ} {flight : Flight}
    (hexp : loop.sim.session.Expects flight.reply) : (loop.onReply flight).sim.session =
      loop.sim.session.confirm flight.reply.size flight.due :=
  Session.receive_of_expects hexp flight.due

theorem expects_latest {e : Exchange σ} (record : e.Recorded) {probe : Outstanding} {t : Trial}
    (ho : e.session.outstanding = some probe) (ht : e.trials.head? = some t) :
    e.session.Expects t.probe.reply ∧ t.probe.size = probe.candidate := by
  obtain ⟨u, hu, _, htoken, hsize⟩ := record.latest probe ho
  cases Option.some.inj (ht.symm.trans hu)
  refine ⟨?_, hsize⟩
  show e.session.outstanding.map Outstanding.token = some t.probe.token
  rw [ho, htoken]
  rfl

variable [RandomSource σ]

/-- The exchange plays the answer when it arrives. -/
theorem mirrors_onReply {e first : Exchange σ} {loop : Loop σ} (h : Mirrors e loop.sim)
    (record : e.Recorded) (run : Exchange.Reach Exchange.Patient first e) {flight : Flight}
    (arriving : flight ∈ loop.sim.inFlight) :
    (∃ e', Exchange.Reach Exchange.Patient first e' ∧ Mirrors e' (loop.onReply flight).sim) ∧
      loop.HandlerCase (loop.onReply flight) := by
  cases h.underWay with
  | nothing hflight _ =>
    rw [hflight] at arriving
    cases arriving
  | @answer probe t ho ht hfate hflight hdue =>
    rw [hflight] at arriving
    obtain rfl := List.mem_singleton.mp arriving
    obtain ⟨hexp, hsize⟩ := expects_latest record ho ht
    have hexp' := hexp
    have ho' := ho
    rw [h.session] at hexp' ho'
    refine ⟨?_, .reply ho' hexp' hsize rfl hdue hflight⟩
    have answered : e.Patient
        (.call (.reply t.probe.reply (probe.sentAt + loop.sim.roundTrip))) :=
      ⟨t, List.mem_of_head? ht, hfate, rfl⟩
    have hplay : (e.play (.call (.reply t.probe.reply
        (probe.sentAt + loop.sim.roundTrip)))).session =
          e.session.confirm t.probe.size (probe.sentAt + loop.sim.roundTrip) :=
      Session.receive_of_expects hexp _
    refine ⟨_, run.next answered, ?_, ?_, .nothing ?_ ?_⟩
    · rw [hplay, onReply_session hexp', h.session]
      rfl
    · rw [onReply_sim hflight]
      exact h.path
    · rw [onReply_sim hflight]
      rfl
    · rw [hplay]
      exact nofun

/-- The loop is a patient run on its path. -/
def Mirrored (options : Options) (generator : Twister) (source : σ) (loop : Loop σ) : Prop :=
  ∃ e, Exchange.Reach Exchange.Patient
    (Exchange.start options.config (options.path generator) 0 source) e ∧ Mirrors e loop.sim

variable {options : Options} {generator : Twister} {source : σ} {n : Nat} {loop later : Loop σ}

theorem start_mirrored (options : Options) (generator : Twister) (source : σ) :
    (start options (options.path generator) source).Mirrored options generator source := by
  refine ⟨_, .start, rfl, rfl, .nothing rfl ?_⟩
  intro probe hp
  cases hp

theorem recorded_of_reach {e : Exchange σ}
    (run : Exchange.Reach Exchange.Patient
      (Exchange.start options.config (options.path generator) 0 source) e) : e.Recorded :=
  (run.mono fun _ _ => Exchange.Patient.possible).recorded
    (Exchange.start_recorded options.config 0 source rfl)

theorem Mirrored.coherent (h : loop.Mirrored options generator source) :
    loop.sim.session.Coherent := by
  obtain ⟨e, run, mirrors⟩ := h
  rw [← mirrors.session]
  exact (recorded_of_reach run).coherent

theorem Mirrored.config (h : loop.Mirrored options generator source) :
    loop.sim.session.config = options.config := by
  obtain ⟨e, run, mirrors⟩ := h
  rw [← mirrors.session]
  exact run.config

theorem Fires.mirrored (hf : loop.Fires later) (punctual : loop.Punctual options)
    (h : loop.Mirrored options generator source) :
    later.Mirrored options generator source ∧ loop.HandlerCase later := by
  obtain ⟨e, run, mirrors⟩ := h
  cases hf with
  | reply _ hmem => exact mirrors_onReply mirrors (recorded_of_reach run) run hmem
  | tick running first =>
    obtain rfl := punctual.running _ running
    rw [loop.onTick_eq_resume]
    exact ⟨(mirrors.ticked first).serve run, .tick first⟩

theorem Reach.mirrored (reach : Reach (Loop.start options (options.path generator) source) n loop) :
    loop.Mirrored options generator source := by
  induction reach with
  | start => exact start_mirrored options generator source
  | next hbefore hf ih => exact (hf.mirrored hbefore.punctual ih).1

theorem Reach.handlerCase
    (reach : Reach (Loop.start options (options.path generator) source) n loop)
    (hf : loop.Fires later) : loop.HandlerCase later :=
  (hf.mirrored reach.punctual reach.mirrored).2

/-- A loop that has stopped did so at a tick, which has seen the receiver's limit. -/
theorem Reach.clamped (reach : Reach (Loop.start options (options.path generator) source) n loop)
    (enabled : options.config.enabled = true) (stopped : loop.tickAt = none) :
    loop.sim.session.Clamped := by
  cases reach with
  | start => cases stopped
  | @next _ loop _ hbefore hf =>
    cases hbefore.handlerCase hf with
    | reply => exact absurd stopped hf.running
    | tick =>
      obtain ⟨_, hcase⟩ := loop.sim.ticked.serve_case
      have hconfig : loop.sim.ticked.session.config = options.config := hbefore.mirrored.config
      exact hcase.clamped hbefore.mirrored.coherent (by rw [hconfig]; exact enabled)

end Loop

end PathMtu
