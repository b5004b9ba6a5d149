import PathMtu.Proofs.SimulatorRun
import PathMtu.Random.Predictable
import PathMtu.Simulator.Report

namespace PathMtu

namespace Session

variable {σ : Type}

/-- What the fragment size is until the search has converged: the configured one, and the lower
bound once a reply was accepted. -/
structure Tracking (s : Session σ) : Prop where
  configured : s.tally.accepted = 0 →
    s.fragment = s.config.fragmentSize.toNat ∧ s.low = s.config.lowest
  confirmed : s.tally.accepted ≠ 0 → s.fragment = s.low

/-- The fragment size is the lower bound, unless all probes were given up. -/
def Published (s : Session σ) : Prop :=
  s.fragment = s.low ↔
    (s.tally.accepted = 0 → 0 < s.tally.timedOut → s.config.fragmentSize = s.config.minSize)

/-- A range that the receiver's limit closes on the way was not closed by losses. -/
def Unsettled (s : Session σ) : Prop :=
  s.outstanding = none → s.clamp.Converged → s.tally.accepted = 0 → s.tally.timedOut = 0

theorem start_tracking (config : Config) (now : Int) (source : σ) :
    (start config now source).Tracking :=
  ⟨fun _ => ⟨rfl, rfl⟩, fun h => absurd rfl h⟩

theorem confirm_tracking (s : Session σ) (size : Nat) (now : Int) :
    (s.confirm size now).Tracking :=
  ⟨fun h => absurd h (Nat.succ_ne_zero _), fun _ => rfl⟩

theorem fragmentSize_eq_minSize {config : Config} :
    config.fragmentSize.toNat = config.lowest ↔ config.fragmentSize = config.minSize :=
  UInt16.toNat_inj

theorem Tracking.published_expire {s : Session σ} (h : s.Tracking) (probe : Outstanding)
    (now : Int) : (s.expire probe now).Published := by
  show s.fragment = s.low ↔ (s.tally.accepted = 0 → 0 < s.tally.timedOut + 1 →
    s.config.fragmentSize = s.config.minSize)
  by_cases hnone : s.tally.accepted = 0
  · obtain ⟨hfragment, hlow⟩ := h.configured hnone
    rw [hfragment, hlow, fragmentSize_eq_minSize]
    exact ⟨fun heq _ _ => heq, fun heq => heq hnone (Nat.succ_pos _)⟩
  · exact ⟨fun _ hzero => absurd hzero hnone, fun _ => h.confirmed hnone⟩

/-- An earlier tick has clamped the range, so that no later one closes it in this way. -/
theorem unsettled_of_clamped {s : Session σ} (clamped : s.Clamped) (ordered : s.low ≤ s.high)
    (unfinished : s.phase ≠ .converged) : s.Unsettled := by
  intro hnone hconverged
  rw [clamped.clamp_eq ordered] at hconverged
  exact absurd (phase_eq_converged.mpr ⟨hnone, hconverged⟩) unfinished

variable [RandomSource σ]

theorem TickCase.tracking {s after : Session σ} {now rto : Int} {answer : Option Probe}
    (hc : TickCase s now rto after answer) (h : s.Tracking)
    (unfinished : after.phase ≠ .converged) : after.Tracking := by
  cases hc with
  | disabled => exact h
  | waiting => exact h
  | expired => exact ⟨h.configured, h.confirmed⟩
  | settled _ ho hconverged =>
    have hphase : s.clamp.settle.phase = .converged := phase_eq_converged.mpr ⟨ho, hconverged⟩
    exact absurd hphase unfinished
  | early => exact ⟨h.configured, h.confirmed⟩
  | issued => exact ⟨h.configured, h.confirmed⟩

/-- A tick after which the search has converged publishes the lower bound, unless it was the tick
that gave up the last probe. -/
theorem TickCase.published {s after : Session σ} {now rto : Int} {answer : Option Probe}
    (hc : TickCase s now rto after answer) (h : s.Tracking) (enabled : s.config.enabled = true)
    (unsettled : s.Unsettled) (converged : after.phase = .converged) : after.Published := by
  obtain ⟨hwaits, hclosed⟩ := phase_eq_converged.mp converged
  cases hc with
  | disabled hd =>
    rw [enabled] at hd
    cases hd
  | waiting _ ho _ =>
    rw [ho] at hwaits
    cases hwaits
  | @expired probe _ _ _ => exact h.published_expire probe now
  | settled _ ho hconverged =>
    constructor
    · intro _ hnone htimedOut
      have hzero := unsettled ho hconverged hnone
      have hpos : 0 < s.tally.timedOut := htimedOut
      omega
    · intro _
      rfl
  | early _ _ hopened _ => exact absurd hclosed hopened
  | issued => cases hwaits

end Session

namespace Loop

variable {σ : Type} [RandomSource σ] {options : Options} {generator : Twister} {source : σ}
  {n : Nat} {loop : Loop σ}

/-- While the loop runs, the fragment size tells whether a reply was accepted; when it stops with a
search that has converged, it is published. -/
def Publishes (loop : Loop σ) : Prop :=
  (loop.tickAt ≠ none → loop.sim.session.Tracking ∧ loop.sim.session.Unsettled) ∧
    (loop.tickAt = none → loop.sim.session.phase = .converged → loop.sim.session.Published)

theorem publishes_resume {sim : Simulation σ} (tracking : sim.session.Tracking)
    (unsettled : sim.session.Unsettled) (coherent : sim.session.Coherent)
    (enabled : sim.session.config.enabled = true) : (resume sim.ticked.serve).Publishes := by
  obtain ⟨_, hcase⟩ := sim.ticked.serve_case
  constructor
  · intro hrunning
    have hphase : sim.ticked.serve.session.phase ≠ .converged :=
      fun hconverged => hrunning (resume_stopped.mpr (Or.inl hconverged))
    exact ⟨hcase.tracking tracking hphase, Session.unsettled_of_clamped
      (hcase.clamped coherent enabled) (hcase.coherent coherent).ordered hphase⟩
  · intro _ hphase
    exact hcase.published tracking enabled unsettled hphase

theorem Reach.publishes (reach : Reach (Loop.start options (options.path generator) source) n loop)
    (enabled : options.config.enabled = true) : loop.Publishes := by
  induction reach with
  | start =>
    exact ⟨fun _ => ⟨Session.start_tracking options.config 0 source, fun _ _ _ => rfl⟩, nofun⟩
  | @next _ loop _ hbefore hf ih =>
    obtain ⟨htracking, hunsettled⟩ := ih.1 hf.running
    cases hbefore.handlerCase hf with
    | @reply _ flight _ hexp =>
      refine ⟨fun _ => ?_, fun hstopped => absurd hstopped hf.running⟩
      rw [onReply_session hexp]
      exact ⟨Session.confirm_tracking _ _ _,
        fun _ _ haccepted => absurd haccepted (Nat.succ_ne_zero _)⟩
    | tick =>
      exact publishes_resume htracking hunsettled hbefore.mirrored.coherent
        (by rw [hbefore.mirrored.config]; exact enabled)

omit [RandomSource σ] in
theorem fragment_mem_summaryLines (sim : Simulation σ) :
    Line.output s!"  Fragment size:    {sim.session.fragment} bytes" ∈ Report.summaryLines sim := by
  simp [Report.summaryLines]

theorem Reach.published (reach : Reach (Loop.start options (options.path generator) source) n loop)
    (enabled : options.config.enabled = true) (stopped : loop.tickAt = none)
    (converged : loop.sim.session.phase = .converged) :
    loop.sim.session.fragment = loop.sim.session.low ↔
      (loop.sim.session.tally.accepted = 0 → 0 < loop.sim.session.tally.timedOut →
        options.config.fragmentSize = options.config.minSize) := by
  have hpublished := (reach.publishes enabled).2 stopped converged
  unfold Session.Published at hpublished
  rw [reach.mirrored.config] at hpublished
  exact hpublished

/-- A loop that stops with a search that has converged reports the lower bound as fragment size
exactly if a reply was accepted, no probe was given up, or the configured fragment size is the
smallest one, in whatever order it ran handlers that were due at the same time. The simulation is
one such loop. -/
theorem loop_fragment_eq_low_iff (source : σ) (enabled : options.config.enabled = true) :
    (∀ generator n loop, Reach (start options (options.path generator) source) n loop →
        loop.tickAt = none → loop.sim.session.phase = .converged →
        (loop.sim.session.fragment = loop.sim.session.low ↔
          (loop.sim.session.tally.accepted = 0 → 0 < loop.sim.session.tally.timedOut →
            options.config.fragmentSize = options.config.minSize)) ∧
        Line.output s!"  Fragment size:    {loop.sim.session.fragment} bytes" ∈
          Report.summaryLines loop.sim) ∧
      ∀ device, (Simulation.run options source device).session.phase = .converged →
        let sim := Simulation.run options source device
        (sim.session.fragment = sim.session.low ↔
          (sim.session.tally.accepted = 0 → 0 < sim.session.tally.timedOut →
            options.config.fragmentSize = options.config.minSize)) ∧
        Line.output s!"  Fragment size:    {sim.session.fragment} bytes" ∈
          (Report.ofOptions options source device).lines := by
  constructor
  · intro generator n loop reach stopped converged
    exact ⟨reach.published enabled stopped converged, fragment_mem_summaryLines loop.sim⟩
  · intro device converged sim
    obtain ⟨n, reach⟩ := run_reached options source device
    have hstopped := resume_stopped.mpr (Or.inl converged)
    exact ⟨Reach.published reach enabled hstopped converged,
      List.mem_append_right _ (fragment_mem_summaryLines _)⟩

/-- The last probe is given up in both. In the first, the one before it was answered; in the second,
all six are given up, and the configured fragment size happens to be the smallest one. -/
theorem loop_fragment_eq_low_iff_104 :
    let options : Options :=
      { config := { minSize := 100, maxSize := 108, threshold := 1, interval := 0 }
        pathMtu := 105, rtt := 100, tickInterval := 100 }
    let first := start options (options.path ⟨#[], 0⟩) ({} : CountingSource)
    let tick (n : Int) : Handler := .tick (n * 100 * millisecond)
    let handlers := [tick 1, tick 2, .reply ⟨200 * millisecond, ⟨104, 1000⟩⟩, tick 3, tick 4,
      tick 5, tick 6]
    let loop := handlers.foldl handle first
    let smallest : Options :=
      { config := { interval := 100, fragmentSize := 576 }, pathMtu := 500 }
    first.InTurn handlers ∧ loop.tickAt = none ∧ loop.sim.session.phase = .converged ∧
      loop.sim.session.tally.accepted = 1 ∧ loop.sim.session.tally.timedOut = 1 ∧
      loop.sim.session.fragment = loop.sim.session.low ∧
      (Simulation.run smallest ({} : CountingSource) 1).session.phase = .converged ∧
      (Simulation.run smallest ({} : CountingSource) 1).session.tally.timedOut = 6 ∧
      (Simulation.run smallest ({} : CountingSource) 1).session.fragment =
        (Simulation.run smallest ({} : CountingSource) 1).session.low := by
  intro options first tick handlers loop smallest
  have turns : first.InTurn handlers := by decide +kernel
  have stopped : loop.tickAt = none := by decide +kernel
  have converged : loop.sim.session.phase = .converged := by decide +kernel
  have haccepted : loop.sim.session.tally.accepted = 1 := by decide +kernel
  have converged' : (Simulation.run smallest ({} : CountingSource) 1).session.phase =
      .converged := by decide +kernel
  obtain ⟨hfragment, _⟩ := (loop_fragment_eq_low_iff ({} : CountingSource) rfl).1 _ _ loop
    (Reach.start.foldl turns) stopped converged
  obtain ⟨hfragment', _⟩ :=
    (loop_fragment_eq_low_iff ({} : CountingSource) rfl).2 1 converged'
  refine ⟨turns, stopped, converged, haccepted, by decide +kernel, hfragment.mpr ?_, converged',
    by decide +kernel, hfragment'.mpr fun _ _ => rfl⟩
  rw [haccepted]
  exact nofun

end Loop

namespace Simulation

/-- The second of these runs with another configured fragment size, which stays although the search
has ruled it out. -/
theorem run_fragment_exceeds_high :
    let options : Options := { config := { interval := 100 }, pathMtu := 500 }
    options.validate = .ok () ∧ options.config.enabled = true ∧
      (run options ({} : CountingSource) 1).session.phase = .converged ∧
      (run options ({} : CountingSource) 1).session.fragment = 1024 ∧
      (run options ({} : CountingSource) 1).session.low = 576 ∧
      (run options ({} : CountingSource) 1).session.high = 586 := by
  intro options
  refine ⟨?_, rfl, by decide +kernel⟩
  unfold Options.validate
  rw [if_neg (by decide +kernel), if_neg (by decide)]
  rfl

end Simulation

end PathMtu
