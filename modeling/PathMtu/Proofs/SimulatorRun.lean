import Mathlib.Data.List.TakeDrop
import PathMtu.Proofs.LoopExchange

namespace PathMtu

namespace Simulation

variable {σ : Type}

/-- The first half of a tick: the clock moves on, and replies arrive. -/
def arrivals (sim : Simulation σ) : Simulation σ :=
  let sim := { sim with ticks := sim.ticks + 1 }
  sim.receiveDue sim.now

theorem foldl_arrive (due : List Flight) (sim : Simulation σ) :
    (due.foldl arrive sim).options = sim.options ∧ (due.foldl arrive sim).ticks = sim.ticks := by
  induction due generalizing sim with
  | nil => exact ⟨rfl, rfl⟩
  | cons flight due ih => exact ih (sim.arrive flight)

@[simp] theorem arrivals_options (sim : Simulation σ) : sim.arrivals.options = sim.options :=
  (foldl_arrive _ _).1

@[simp] theorem arrivals_ticks (sim : Simulation σ) : sim.arrivals.ticks = sim.ticks + 1 :=
  (foldl_arrive _ _).2

theorem arrivals_nil {sim : Simulation σ} (h : sim.inFlight = []) : sim.arrivals = sim.ticked := by
  have hsplit : Flight.split sim.ticked.now sim.inFlight = ([], []) := by
    rw [h]
    rfl
  show sim.ticked.receiveDue sim.ticked.now = _
  rw [receiveDue, show sim.ticked.inFlight = sim.inFlight from rfl, hsplit]
  show { sim.ticked with inFlight := [] } = sim.ticked
  rw [← h]
  rfl

theorem arrivals_due {sim : Simulation σ} {flight : Flight} (h : sim.inFlight = [flight])
    (hdue : flight.due ≤ sim.ticked.now) :
    sim.arrivals = ({ sim with inFlight := [] } : Simulation σ).ticked.arrive flight := by
  have hsplit : Flight.split sim.ticked.now sim.inFlight = ([flight], []) := by
    rw [h, Flight.split, List.span_eq_takeWhile_dropWhile]
    simp [hdue]
  show sim.ticked.receiveDue sim.ticked.now = _
  rw [receiveDue, show sim.ticked.inFlight = sim.inFlight from rfl, hsplit]
  rfl

theorem arrivals_later {sim : Simulation σ} {flight : Flight} (h : sim.inFlight = [flight])
    (hlater : sim.ticked.now < flight.due) : sim.arrivals = sim.ticked := by
  have hsplit : Flight.split sim.ticked.now sim.inFlight = ([], [flight]) := by
    rw [h, Flight.split, List.span_eq_takeWhile_dropWhile]
    simp [hlater]
  show sim.ticked.receiveDue sim.ticked.now = _
  rw [receiveDue, show sim.ticked.inFlight = sim.inFlight from rfl, hsplit]
  show { sim.ticked with inFlight := [flight] } = sim.ticked
  rw [← h]
  rfl

variable [RandomSource σ]

theorem tick_eq (sim : Simulation σ) : sim.tick = sim.arrivals.serve := rfl

@[simp] theorem tick_options (sim : Simulation σ) : sim.tick.options = sim.options := by
  simp [tick_eq]

@[simp] theorem tick_ticks (sim : Simulation σ) : sim.tick.ticks = sim.ticks + 1 := by
  simp [tick_eq]

/-- The states after each tick of a run, up to the one that stops it. -/
inductive Visited (options : Options) (source : σ) (device : UInt32) : Simulation σ → Prop
  | first : Visited options source device (start options source device).tick
  | next {sim : Simulation σ} : Visited options source device sim → ¬sim.Stopped →
      Visited options source device sim.tick

theorem advance_visited {options : Options} {source : σ} {device : UInt32} (n : Nat)
    {sim : Simulation σ} (h : Visited options source device sim.tick) :
    Visited options source device (advance (n + 1) sim) := by
  induction n generalizing sim with
  | zero =>
    have heq : advance 1 sim = sim.tick := by
      simp only [advance, ite_self]
    rw [heq]
    exact h
  | succ n ih =>
    rw [advance]
    by_cases hs : sim.tick.Stopped
    · rw [if_pos hs]
      exact h
    · rw [if_neg hs]
      exact ih (h.next hs)

theorem advance_stopped (n : Nat) {sim : Simulation σ}
    (enough : sim.options.duration.toNat ≤
      (sim.ticks + (n + 1)) * sim.options.tickInterval.toNat) :
    (advance (n + 1) sim).Stopped := by
  induction n generalizing sim with
  | zero =>
    have heq : advance 1 sim = sim.tick := by
      simp only [advance, ite_self]
    rw [heq, stopped_iff, tick_options, tick_ticks]
    exact Or.inr enough
  | succ n ih =>
    rw [advance]
    by_cases hs : sim.tick.Stopped
    · rw [if_pos hs]
      exact hs
    · rw [if_neg hs]
      apply ih
      rw [tick_options, tick_ticks]
      rw [show sim.ticks + 1 + (n + 1) = sim.ticks + (n + 1 + 1) by omega]
      exact enough

theorem duration_le_tickLimit {options : Options} (h : 0 < options.tickInterval.toNat) :
    options.duration.toNat ≤ tickLimit options * options.tickInterval.toNat := by
  have hle : (options.duration.toNat + options.tickInterval.toNat - 1) /
      options.tickInterval.toNat ≤ tickLimit options := Nat.le_max_right _ _
  have hdiv := Nat.lt_mul_div_succ
    (options.duration.toNat + options.tickInterval.toNat - 1) h
  have hmul := Nat.mul_le_mul_right options.tickInterval.toNat hle
  rw [Nat.mul_succ, Nat.mul_comm] at hdiv
  omega

theorem run_visited (options : Options) (source : σ) (device : UInt32) :
    Visited options source device (run options source device) := by
  obtain ⟨n, hn⟩ := Nat.exists_eq_succ_of_ne_zero (Nat.ne_of_gt (tickLimit_pos options))
  unfold run
  rw [hn]
  exact advance_visited n .first

/-- A run ends because it converged or because its time was up, not for want of ticks. -/
theorem run_stopped {options : Options} (h : 0 < options.tickInterval.toNat) (source : σ)
    (device : UInt32) : (run options source device).Stopped := by
  obtain ⟨n, hn⟩ := Nat.exists_eq_succ_of_ne_zero (Nat.ne_of_gt (tickLimit_pos options))
  have henough := duration_le_tickLimit h
  unfold run
  rw [hn] at henough ⊢
  apply advance_stopped
  show options.duration.toNat ≤ (0 + (n + 1)) * options.tickInterval.toNat
  rw [Nat.zero_add]
  exact henough

end Simulation

namespace Loop

variable {σ : Type} [RandomSource σ] {options : Options} {generator : Twister} {source : σ}
  {device : UInt32} {sim : Simulation σ} {n : Nat} {loop : Loop σ}

theorem Reach.serve (reach : Reach (Loop.start options (options.path generator) source) n loop)
    (running : loop.tickAt ≠ none)
    (first : ∀ flight ∈ loop.sim.inFlight, loop.sim.ticked.now ≤ flight.due) :
    Reach (Loop.start options (options.path generator) source) (n + 1)
      (resume loop.sim.ticked.serve) := by
  obtain ⟨next, hnext⟩ := Option.ne_none_iff_exists'.mp running
  obtain rfl := reach.punctual.running next hnext
  rw [← loop.onTick_eq_resume]
  exact reach.next (.tick hnext first)

/-- From one tick of the simulation to the next, the loop runs the handler of the reply that is due,
if there is one, and that of the tick. -/
theorem Reach.tick (reach : Reach (Loop.start options (options.path generator) source) n loop)
    (running : loop.tickAt ≠ none) :
    ∃ m, Reach (Loop.start options (options.path generator) source) m (resume loop.sim.tick) := by
  obtain ⟨e, _, mirrors⟩ := reach.mirrored
  rw [Simulation.tick_eq]
  cases mirrors.underWay with
  | nothing hflight _ =>
    rw [Simulation.arrivals_nil hflight]
    refine ⟨_, reach.serve running ?_⟩
    rw [hflight]
    exact nofun
  | @answer probe t _ _ _ hflight _ =>
    obtain ⟨next, hnext⟩ := Option.ne_none_iff_exists'.mp running
    have hontime := reach.punctual.running next hnext
    by_cases hdue : probe.sentAt + loop.sim.roundTrip ≤ loop.sim.ticked.now
    · let flight : Flight := ⟨probe.sentAt + loop.sim.roundTrip, t.probe.reply⟩
      have hreply : loop.Fires (loop.onReply flight) := by
        refine .reply hnext ?_ (hontime ▸ hdue) ?_
        · rw [hflight]
          exact List.mem_singleton_self _
        · rw [hflight]
          exact List.forall_mem_singleton.mpr (Int.le_refl _)
      have harrived : loop.sim.arrivals = (loop.onReply flight).sim.ticked := by
        rw [Simulation.arrivals_due hflight hdue, onReply_sim hflight]
        rfl
      rw [harrived]
      refine ⟨_, (reach.next hreply).serve running ?_⟩
      rw [onReply_sim hflight]
      exact nofun
    · have hlater := Int.not_le.mp hdue
      rw [Simulation.arrivals_later hflight hlater]
      refine ⟨_, reach.serve running ?_⟩
      rw [hflight]
      exact List.forall_mem_singleton.mpr (Int.le_of_lt hlater)

/-- The simulation is one way for the loop to go: each of its ticks is one of the loop's. -/
theorem reach_visited (h : Simulation.Visited options source device sim) :
    ∃ n, Reach (start options (Simulation.pathOf options device) source) n (resume sim) := by
  induction h with
  | first => exact Reach.start.tick (Option.some_ne_none _)
  | next _ hrunning ih =>
    obtain ⟨n, reach⟩ := ih
    exact Reach.tick reach (mt resume_stopped.mp hrunning)

theorem run_reached (options : Options) (source : σ) (device : UInt32) :
    ∃ n, Reach (start options (Simulation.pathOf options device) source) n
      (resume (Simulation.run options source device)) :=
  reach_visited (Simulation.run_visited options source device)

end Loop

end PathMtu
