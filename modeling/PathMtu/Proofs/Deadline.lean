import PathMtu.Proofs.Bracketing
import PathMtu.Proofs.Pace
import PathMtu.Proofs.SimulatorRun
import PathMtu.Proofs.Validation
import PathMtu.Random.Predictable

namespace PathMtu

namespace Simulation

variable {σ : Type} {sim : Simulation σ}

def tickStep (sim : Simulation σ) : Int := sim.options.tickInterval.toNat * millisecond

theorem tickStep_nonneg (sim : Simulation σ) : 0 ≤ sim.tickStep :=
  Int.mul_nonneg (Int.natCast_nonneg _) (by decide)

/-- The search is on time at the latest tick of the loop. -/
def OnTime (k : Nat) (sim : Simulation σ) : Prop :=
  sim.session.Paced sim.tickStep (2 * sim.roundTrip) k sim.now

theorem probeTimeout_eq (rtt : Nat) : probeTimeout (2 * (rtt * millisecond)) =
    ((max (2 * rtt) 200 : Nat) : Int) * millisecond := by
  unfold probeTimeout leastProbeTimeout millisecond
  omega

theorem period_eq (nonneg : 0 ≤ sim.session.config.interval.toInt)
    (small : sim.session.config.interval.toInt < 2 ^ 32) :
    sim.session.period sim.tickStep (2 * sim.roundTrip) =
      (sim.session.config.interval.toInt + ((max (2 * sim.options.rtt.toNat) 200 : Nat) : Int) +
        2 * sim.options.tickInterval.toNat) * millisecond := by
  unfold Session.period tickStep roundTrip
  rw [probeTimeout_eq, Config.intervalNanos_eq nonneg small, Int.add_mul, Int.add_mul,
    Int.mul_assoc]
  rfl

/-- A loop that is on time when its duration has passed has converged. -/
theorem OnTime.converged {k : Nat} (h : sim.OnTime k) (hs : sim.session.Coherent)
    (clamped : sim.session.Clamped) (nonneg : 0 ≤ sim.session.config.interval.toInt)
    (small : sim.session.config.interval.toInt < 2 ^ 32)
    (htick : 0 < sim.options.tickInterval.toNat)
    (time : k * (sim.session.config.interval.toInt + max (2 * sim.options.rtt.toNat) 200 +
      2 * sim.options.tickInterval.toNat) + sim.options.tickInterval.toNat ≤
        sim.options.duration.toNat)
    (stopped : sim.Stopped) : sim.session.phase = .converged := by
  rcases stopped with hconverged | hduration
  · exact hconverged
  · by_cases hphase : sim.session.phase = .converged
    · exact hphase
    · exfalso
      have hnanos : 0 ≤ sim.session.config.intervalNanos := by
        rw [Config.intervalNanos_eq nonneg small]
        omega
      have hlatest := Session.Paced.latest_le h hs clamped sim.tickStep_nonneg hnanos hphase
      rw [period_eq nonneg small, ← Int.mul_assoc] at hlatest
      unfold tickStep millisecond at hlatest
      unfold millisecond at hduration
      omega

end Simulation

namespace Loop

open Simulation (OnTime)

variable {σ : Type} {options : Options}

theorem start_onTime {k : Nat} (path : Path) (source : σ) (accepted : options.config.Accepted)
    (nonneg : 0 ≤ options.config.intervalNanos)
    (range : min options.config.maxSize.toNat options.config.cap - options.config.minSize.toNat ≤
      options.config.threshold.toNat * 2 ^ k) : (start options path source).sim.OnTime k := by
  have hbuffer := accepted.buffer
  have hsize := options.config.minSize.toNat_lt
  have hlowest : options.config.lowest ≤ options.config.cap := by
    unfold Config.lowest Config.cap Config.largestSize
    omega
  have hhighest : options.config.highest = options.config.maxSize.toNat :=
    Nat.max_eq_left accepted.ordered
  have hrange : min options.config.highest options.config.cap - options.config.lowest ≤
      options.config.threshold.toNat * 2 ^ k := by
    rw [hhighest]
    exact range
  have hzero : (start options path source).sim.now = 0 := by
    simp [Simulation.now, start, Simulation.start]
  unfold OnTime
  rw [hzero]
  exact Session.start_paced source nonneg hlowest hrange

/-- A reply takes one round trip, and that is in time for the probe that waits. -/
theorem onTime_onReply {k : Nat} {loop : Loop σ} (h : loop.sim.OnTime k)
    (hs : loop.sim.session.Coherent) (nonneg : 0 ≤ loop.sim.session.config.intervalNanos)
    {probe : Outstanding} {flight : Flight} (ho : loop.sim.session.outstanding = some probe)
    (hexp : loop.sim.session.Expects flight.reply) (hsize : flight.reply.size = probe.candidate)
    (hdue : flight.due = probe.sentAt + loop.sim.roundTrip) (hlater : loop.sim.now ≤ flight.due) :
    (loop.onReply flight).sim.OnTime k := by
  have hround := loop.sim.roundTrip_nonneg
  have hintime : flight.due ≤ probe.sentAt + probeTimeout (2 * loop.sim.roundTrip) := by
    unfold probeTimeout
    omega
  show (loop.onReply flight).sim.session.Paced loop.sim.tickStep (2 * loop.sim.roundTrip) k
    loop.sim.now
  rw [onReply_session hexp, hsize]
  exact Session.Paced.confirm h hs loop.sim.tickStep_nonneg nonneg ho hintime hlater

variable [RandomSource σ]

theorem onTime_resume {k : Nat} {sim : Simulation σ} (h : sim.OnTime k)
    (hs : sim.session.Coherent) (enabled : sim.session.config.enabled = true)
    (threshold : 1 ≤ sim.session.config.threshold.toNat)
    (nonneg : 0 ≤ sim.session.config.intervalNanos) :
    (resume sim.ticked.serve).sim.OnTime k ∨
      (resume sim.ticked.serve).sim.session.phase = .converged := by
  obtain ⟨_, hcase⟩ := sim.ticked.serve_case
  have hround : sim.ticked.serve.roundTrip = sim.roundTrip := by
    simp [Simulation.roundTrip, Simulation.ticked]
  have hstep : sim.ticked.serve.tickStep = sim.tickStep := by
    simp [Simulation.tickStep, Simulation.ticked]
  have hnow : sim.ticked.now = sim.now + sim.tickStep := sim.ticked_now
  rw [hnow] at hcase
  rw [or_comm]
  show _ ∨ sim.ticked.serve.session.Paced sim.ticked.serve.tickStep
    (2 * sim.ticked.serve.roundTrip) k sim.ticked.serve.now
  rw [Simulation.serve_now, hround, hstep, hnow]
  exact hcase.paced h hs enabled threshold nonneg

section

variable {generator : Twister} {source : σ} {n : Nat} {loop : Loop σ}

/-- The search is on time as long as the loop runs, and when it stops unless it has converged. -/
theorem Reach.onTime {k : Nat}
    (reach : Reach (Loop.start options (options.path generator) source) n loop)
    (accepted : options.config.Accepted) (enabled : options.config.enabled = true)
    (threshold : 1 ≤ options.config.threshold.toNat) (nonneg : 0 ≤ options.config.intervalNanos)
    (range : min options.config.maxSize.toNat options.config.cap - options.config.minSize.toNat ≤
      options.config.threshold.toNat * 2 ^ k) :
    loop.sim.OnTime k ∨ loop.tickAt = none ∧ loop.sim.session.phase = .converged := by
  induction reach with
  | start => exact Or.inl (start_onTime _ source accepted nonneg range)
  | @next _ loop _ hbefore hf ih =>
    have hontime := ih.resolve_right fun hstopped => hf.running hstopped.1
    have hcoherent := hbefore.mirrored.coherent
    have hconfig := hbefore.mirrored.config
    rw [← hconfig] at enabled threshold nonneg
    cases hbefore.handlerCase hf with
    | reply ho hexp hsize hdue hlater _ =>
      exact Or.inl (onTime_onReply hontime hcoherent nonneg ho hexp hsize hdue hlater)
    | tick =>
      rcases onTime_resume hontime hcoherent enabled threshold nonneg with hnext | hphase
      · exact Or.inl hnext
      · exact Or.inr ⟨resume_stopped.mpr (Or.inl hphase), hphase⟩

/-- Given time for as many probes as it takes to halve the range down to the threshold, the search
has converged when the loop stops. -/
theorem Reach.converged {k : Nat}
    (reach : Reach (Loop.start options (options.path generator) source) n loop)
    (stopped : loop.tickAt = none) (valid : options.validate = .ok ())
    (enabled : options.config.enabled = true)
    (interval : options.config.interval.toInt < 2 ^ 32)
    (threshold : 1 ≤ options.config.threshold.toNat)
    (range : min options.config.maxSize.toNat options.config.cap - options.config.minSize.toNat ≤
      options.config.threshold.toNat * 2 ^ k)
    (time : k * (options.config.interval.toInt + max (2 * options.rtt.toNat) 200 +
      2 * options.tickInterval.toNat) + options.tickInterval.toNat ≤ options.duration.toNat) :
    loop.sim.session.phase = .converged := by
  obtain ⟨htick, accepted⟩ := Options.accepted_of_validate valid
  have hmilliseconds := accepted.interval
  have hnanos : 0 ≤ options.config.intervalNanos := by
    rw [Config.intervalNanos_eq hmilliseconds interval]
    omega
  have hconfig := reach.mirrored.config
  have hoptions := reach.punctual.same
  rcases reach.onTime accepted enabled threshold hnanos range with hontime | ⟨_, hphase⟩
  · refine hontime.converged reach.mirrored.coherent (reach.clamped enabled stopped) ?_ ?_ ?_ ?_
      (reach.punctual.stopped stopped).2.1
    · rw [hconfig]
      exact hmilliseconds
    · rw [hconfig]
      exact interval
    · rw [hoptions]
      exact htick
    · rw [hconfig, hoptions]
      exact time
  · exact hphase

theorem Reach.bracketed
    (reach : Reach (Loop.start options (options.path generator) source) n loop)
    (carries : options.config.framing.overhead < options.pathMtu.toNat)
    (lossless : loop.sim.path.lost = 0) :
    loop.sim.session.low ≤ options.config.limit options.pathMtu.toNat ∧
      options.config.limit options.pathMtu.toNat ≤ loop.sim.session.high := by
  obtain ⟨e, run, mirrors⟩ := reach.mirrored
  have hlost : e.path.lost ≤ (options.path generator).lost := by
    rw [mirrors.path, lossless]
    exact Nat.zero_le _
  have hframing : (options.path generator).framing = options.config.framing := rfl
  have hfits : options.config.framing.overhead + 1 ≤ (options.path generator).mtu := carries
  have hbracket := run.bracketed hframing hfits hlost
  rw [← mirrors.session]
  exact ⟨hbracket.low, hbracket.high⟩

end

/-- Given enough time the loop ends with a search that has converged, in whatever order it runs
handlers that are due at the same time; and if no probe was lost at random, to the path's limit. The
simulation is one such loop, run to its end. -/
theorem loop_finds_limit {k : Nat} (source : σ) (valid : options.validate = .ok ())
    (enabled : options.config.enabled = true)
    (interval : options.config.interval.toInt < 2 ^ 32)
    (threshold : 1 ≤ options.config.threshold.toNat)
    (carries : options.config.framing.overhead < options.pathMtu.toNat)
    (range : min options.config.maxSize.toNat options.config.cap - options.config.minSize.toNat ≤
      options.config.threshold.toNat * 2 ^ k)
    (time : k * (options.config.interval.toInt + max (2 * options.rtt.toNat) 200 +
      2 * options.tickInterval.toNat) + options.tickInterval.toNat ≤ options.duration.toNat) :
    let limit := options.config.limit options.pathMtu.toNat
    (∀ generator n loop, Reach (start options (options.path generator) source) n loop →
        n ≤ 2 * Simulation.tickLimit options ∧
        (loop.tickAt ≠ none → ∃ later, loop.Fires later) ∧
        (loop.tickAt = none → loop.sim.session.phase = .converged ∧ loop.sim.exitStatus = 0 ∧
          (loop.sim.path.lost = 0 → loop.sim.session.low ≤ limit ∧
            limit ≤ loop.sim.session.low + options.config.threshold.toNat))) ∧
      ∀ device, ∃ n loop, Reach (start options (Simulation.pathOf options device) source) n loop ∧
        loop.tickAt = none ∧ loop.sim = Simulation.run options source device := by
  intro limit
  have htick := (Options.accepted_of_validate valid).1
  constructor
  · intro generator n loop reach
    obtain ⟨hcount, hgoes⟩ := reach.ends htick
    refine ⟨hcount, hgoes, ?_⟩
    intro hstopped
    have hphase := reach.converged hstopped valid enabled interval threshold range time
    refine ⟨hphase, if_pos (Or.inl hphase), ?_⟩
    intro lossless
    obtain ⟨hlow, hhigh⟩ := reach.bracketed carries lossless
    have hconverged := (Session.phase_eq_converged.mp hphase).2
    unfold Session.Converged at hconverged
    rw [reach.mirrored.config] at hconverged
    exact ⟨hlow, by omega⟩
  · intro device
    obtain ⟨n, reach⟩ := run_reached options source device
    exact ⟨n, _, reach, resume_stopped.mpr (Simulation.run_stopped htick source device), rfl⟩

/-- From 100 to 108 on a path of 105 bytes, in the least time that is enough for three probes. The
reply to the first one and the second tick are due together: the loop ends one tick later if that
tick goes first, and both ways it ends with 104. -/
theorem loop_finds_limit_105 :
    let options : Options :=
      { config := { minSize := 100, maxSize := 108, threshold := 1, interval := 0 }
        pathMtu := 105, rtt := 100, tickInterval := 100, duration := 1300 }
    let generator : Twister := ⟨#[], 0⟩
    let first := start options (options.path generator) ({} : CountingSource)
    let tick (n : Int) : Handler := .tick (n * 100 * millisecond)
    let reply : Handler := .reply ⟨200 * millisecond, ⟨104, 1000⟩⟩
    let early := [tick 1, reply, tick 2, tick 3, tick 4, tick 5]
    let late := [tick 1, tick 2, reply, tick 3, tick 4, tick 5, tick 6]
    options.validate = .ok () ∧ ∀ handlers ∈ [early, late],
      let loop := handlers.foldl handle first
      first.InTurn handlers ∧ loop.tickAt = none ∧ loop.sim.path.lost = 0 ∧
        loop.sim.session.tally.accepted = 1 ∧ loop.sim.session.phase = .converged ∧
        loop.sim.exitStatus = 0 ∧ loop.sim.session.low = 104 ∧
        options.config.limit 105 ≤ loop.sim.session.low + 1 := by
  intro options generator first tick reply early late
  have valid : options.validate = .ok () := by
    unfold Options.validate
    rw [if_neg (by decide +kernel), if_neg (by decide)]
    rfl
  obtain ⟨hends, _⟩ := loop_finds_limit (k := 3) ({} : CountingSource) valid rfl (by decide)
    (by decide) (by decide) (by decide) (by decide)
  refine ⟨valid, ?_⟩
  intro handlers hmem loop
  have turns : first.InTurn handlers ∧ loop.tickAt = none ∧ loop.sim.path.lost = 0 ∧
      loop.sim.session.tally.accepted = 1 ∧ loop.sim.session.low = 104 := by
    revert handlers
    decide +kernel
  obtain ⟨turns, hstopped, hlost, haccepted, hlow⟩ := turns
  obtain ⟨_, _, hend⟩ := hends generator _ loop (Reach.start.foldl turns)
  obtain ⟨hphase, hstatus, hfound⟩ := hend hstopped
  exact ⟨turns, hstopped, hlost, haccepted, hphase, hstatus, hlow, (hfound hlost).2⟩

end Loop

end PathMtu
