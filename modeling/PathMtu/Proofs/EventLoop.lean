import Mathlib.Algebra.Order.Floor.Div
import Mathlib.Data.List.MinMax
import PathMtu.Proofs.SessionSteps
import PathMtu.Simulator.EventLoop

namespace PathMtu

namespace Simulation

variable {σ : Type}

theorem ticked_now (sim : Simulation σ) :
    sim.ticked.now = sim.now + sim.options.tickInterval.toNat * millisecond := by
  unfold now ticked
  push_cast
  rw [Int.add_mul, Int.add_mul, Int.one_mul]

/-- The loop runs on whole milliseconds: its ticks are counted against the duration. -/
theorem stopped_iff (sim : Simulation σ) : sim.Stopped ↔ sim.session.phase = .converged ∨
    sim.options.duration.toNat ≤ sim.ticks * sim.options.tickInterval.toNat := by
  unfold Stopped now
  rw [Int.mul_le_mul_right (by decide)]
  exact or_congr_right (by norm_cast)

theorem tickLimit_pos (options : Options) : 0 < tickLimit options := Nat.le_max_left _ _

/-- There is time for another tick, the first one in any case. -/
theorem lt_tickLimit_iff {options : Options} (h : 0 < options.tickInterval.toNat) {n : Nat} :
    n < tickLimit options ↔ n = 0 ∨ n * options.tickInterval.toNat < options.duration.toNat := by
  show n < max 1 (options.duration.toNat ⌈/⌉ options.tickInterval.toNat) ↔ _
  rw [lt_max_iff, Nat.lt_one_iff, ← Nat.not_le, ceilDiv_le_iff_le_mul h, Nat.not_le, Nat.mul_comm]

variable [RandomSource σ]

/-- The second half of a tick, on time. -/
def serve (sim : Simulation σ) : Simulation σ := sim.serveAt sim.now

theorem serve_of_none {sim : Simulation σ}
    (h : (sim.session.tick sim.now (2 * sim.roundTrip)).answer = none) :
    sim.serve = sim.note (sim.session.tick sim.now (2 * sim.roundTrip)) := by
  simp only [serve, serveAt, h]

theorem serve_of_some {sim : Simulation σ} {probe : Probe}
    (h : (sim.session.tick sim.now (2 * sim.roundTrip)).answer = some probe) :
    sim.serve = (sim.note (sim.session.tick sim.now (2 * sim.roundTrip))).send probe sim.now := by
  simp only [serve, serveAt, h]

@[simp] theorem serve_options (sim : Simulation σ) : sim.serve.options = sim.options := by
  cases h : (sim.session.tick sim.now (2 * sim.roundTrip)).answer with
  | none => rw [serve_of_none h]; rfl
  | some probe => rw [serve_of_some h]; rfl

@[simp] theorem serve_ticks (sim : Simulation σ) : sim.serve.ticks = sim.ticks := by
  cases h : (sim.session.tick sim.now (2 * sim.roundTrip)).answer with
  | none => rw [serve_of_none h]; rfl
  | some probe => rw [serve_of_some h]; rfl

theorem serve_session (sim : Simulation σ) :
    sim.serve.session = (sim.session.tick sim.now (2 * sim.roundTrip)).session := by
  cases h : (sim.session.tick sim.now (2 * sim.roundTrip)).answer with
  | none => rw [serve_of_none h]; rfl
  | some probe => rw [serve_of_some h]; rfl

theorem serve_now (sim : Simulation σ) : sim.serve.now = sim.now := by
  simp [now]

theorem serve_case (sim : Simulation σ) : ∃ answer,
    sim.session.TickCase sim.now (2 * sim.roundTrip) sim.serve.session answer := by
  rw [serve_session]
  exact ⟨_, Session.tick_case sim.session sim.now (2 * sim.roundTrip)⟩

/-- No more than one reply comes under way. -/
theorem serve_inFlight_length_le (sim : Simulation σ) :
    sim.serve.inFlight.length ≤ sim.inFlight.length + 1 := by
  cases h : (sim.session.tick sim.now (2 * sim.roundTrip)).answer with
  | none =>
    rw [serve_of_none h]
    exact Nat.le_succ _
  | some probe =>
    rw [serve_of_some h]
    show (sim.inFlight ++ ((sim.path.deliver probe).1.map _).toList).length ≤ _
    rw [List.length_append, Option.length_toList]
    split <;> omega

end Simulation

namespace Loop

variable {σ : Type}

/-- The loop after the tick that has led to a state of the simulation. -/
def resume (sim : Simulation σ) : Loop σ :=
  { sim
    clock := sim.now
    tickAt :=
      if sim.Stopped then none else some (sim.now + sim.options.tickInterval.toNat * millisecond) }

/-- The loop keeps time: the next tick is due one interval after the latest one, and the loop stops
at a tick and at no other time. -/
structure Punctual (options : Options) (loop : Loop σ) : Prop where
  same : loop.sim.options = options
  running : ∀ next, loop.tickAt = some next → next = loop.sim.ticked.now
  stopped : loop.tickAt = none →
    loop.clock = loop.sim.now ∧ loop.sim.Stopped ∧ 0 < loop.sim.ticks

theorem start_punctual (options : Options) (path : Path) (source : σ) :
    (start options path source).Punctual options := by
  refine ⟨rfl, ?_, nofun⟩
  intro next hnext
  have hzero : (start options path source).sim.now = 0 := by
    simp [Simulation.now, start, Simulation.start]
  rw [Simulation.ticked_now, hzero, ← Option.some.inj hnext]
  exact (Int.zero_add _).symm

theorem resume_stopped {sim : Simulation σ} : (resume sim).tickAt = none ↔ sim.Stopped := by
  show (if sim.Stopped then none else some _) = none ↔ _
  by_cases hstops : sim.Stopped <;> simp [hstops]

theorem resume_punctual {options : Options} {sim : Simulation σ} (same : sim.options = options)
    (ticked : 0 < sim.ticks) : (resume sim).Punctual options := by
  refine ⟨same, ?_, ?_⟩
  · intro next hnext
    obtain ⟨_, hnow⟩ := Option.ite_none_left_eq_some.mp hnext
    rw [← Option.some.inj hnow]
    exact (Simulation.ticked_now sim).symm
  · intro hnone
    exact ⟨rfl, resume_stopped.mp hnone, ticked⟩

variable [RandomSource σ]

/-- On time, a tick of the loop is the second half of a tick of the simulation. -/
theorem onTick_eq_resume (loop : Loop σ) :
    loop.onTick loop.sim.ticked.now = resume loop.sim.ticked.serve := by
  unfold resume Simulation.Stopped
  simp only [Simulation.serve_now]
  rfl

theorem Fires.running {loop later : Loop σ} (hf : loop.Fires later) : loop.tickAt ≠ none := by
  intro hstopped
  cases hf with
  | reply running => cases hstopped.symm.trans running
  | tick running => cases hstopped.symm.trans running

/-- There is always a handler to run until the loop is stopped. -/
theorem fires_of_running {loop : Loop σ} (running : loop.tickAt ≠ none) :
    ∃ later, loop.Fires later := by
  obtain ⟨next, hnext⟩ := Option.ne_none_iff_exists'.mp running
  cases hfirst : loop.sim.inFlight.argmin Flight.due with
  | none =>
    have hnil := List.argmin_eq_none.mp hfirst
    refine ⟨_, .tick hnext ?_⟩
    rw [hnil]
    exact nofun
  | some flight =>
    have hmem := List.argmin_mem hfirst
    have hleast : ∀ other ∈ loop.sim.inFlight, flight.due ≤ other.due :=
      fun other hother => List.le_of_mem_argmin hother hfirst
    by_cases hdue : flight.due ≤ next
    · exact ⟨_, .reply hnext hmem hdue hleast⟩
    · refine ⟨_, .tick hnext ?_⟩
      intro other hother
      have := hleast other hother
      omega

theorem Fires.punctual {options : Options} {loop later : Loop σ} (hf : loop.Fires later)
    (h : loop.Punctual options) : later.Punctual options := by
  cases hf with
  | reply running =>
    refine ⟨h.same, h.running, ?_⟩
    intro hnone
    cases running.symm.trans hnone
  | tick running =>
    obtain rfl := h.running _ running
    rw [loop.onTick_eq_resume]
    refine resume_punctual ?_ ?_
    · rw [Simulation.serve_options]
      exact h.same
    · rw [Simulation.serve_ticks]
      exact Nat.succ_pos _

section

variable {options : Options} {path : Path} {source : σ} {n : Nat} {loop : Loop σ}

theorem Reach.punctual (reach : Reach (Loop.start options path source) n loop) :
    loop.Punctual options := by
  induction reach with
  | start => exact start_punctual options path source
  | next _ hf ih => exact hf.punctual ih

/-- While the loop waits for a tick, there is time for it. -/
theorem Reach.ticks_le (htick : 0 < options.tickInterval.toNat)
    (reach : Reach (Loop.start options path source) n loop) :
    (loop.tickAt ≠ none → loop.sim.ticks < Simulation.tickLimit options) ∧
      loop.sim.ticks ≤ Simulation.tickLimit options := by
  induction reach with
  | start => exact ⟨fun _ => Simulation.tickLimit_pos options, Nat.zero_le _⟩
  | @next n loop _ hbefore hf ih =>
    have hroom := ih.1 hf.running
    cases hf with
    | reply => exact ⟨fun _ => hroom, ih.2⟩
    | tick running =>
      obtain rfl := hbefore.punctual.running _ running
      rw [loop.onTick_eq_resume]
      have hticks : loop.sim.ticked.serve.ticks = loop.sim.ticks + 1 := Simulation.serve_ticks _
      have hoptions : loop.sim.ticked.serve.options = options :=
        (Simulation.serve_options _).trans hbefore.punctual.same
      constructor
      · intro hrunning
        -- The duration has not passed at this tick.
        have hgoes := mt resume_stopped.mpr hrunning
        rw [Simulation.stopped_iff, hoptions] at hgoes
        have htime := Nat.lt_of_not_le (not_or.mp hgoes).2
        exact (Simulation.lt_tickLimit_iff htick).mpr (Or.inr htime)
      · show loop.sim.ticked.serve.ticks ≤ _
        rw [hticks]
        exact hroom

/-- Each tick brings one handler and at most one reply, which brings another. -/
theorem Reach.handlers_le (reach : Reach (Loop.start options path source) n loop) :
    n + loop.sim.inFlight.length ≤ 2 * loop.sim.ticks := by
  induction reach with
  | start => exact Nat.le_refl 0
  | @next n loop _ hbefore hf ih =>
    cases hf with
    | @reply _ flight _ hmem =>
      have hpos := List.length_pos_of_mem hmem
      show n + 1 + (loop.sim.inFlight.erase flight).length ≤ 2 * loop.sim.ticks
      rw [List.length_erase_of_mem hmem]
      omega
    | tick running =>
      obtain rfl := hbefore.punctual.running _ running
      have hticks : loop.sim.ticked.serve.ticks = loop.sim.ticks + 1 := Simulation.serve_ticks _
      have hflight : loop.sim.ticked.serve.inFlight.length ≤ loop.sim.inFlight.length + 1 :=
        Simulation.serve_inFlight_length_le _
      rw [loop.onTick_eq_resume]
      show n + 1 + loop.sim.ticked.serve.inFlight.length ≤ 2 * loop.sim.ticked.serve.ticks
      rw [hticks]
      omega

/-- However the handlers follow each other, no more of them run than this, and one is ready until
the loop is stopped: so it comes to an end. -/
theorem Reach.ends (htick : 0 < options.tickInterval.toNat)
    (reach : Reach (Loop.start options path source) n loop) :
    n ≤ 2 * Simulation.tickLimit options ∧ (loop.tickAt ≠ none → ∃ later, loop.Fires later) := by
  have hcount := reach.handlers_le
  have hticks := (reach.ticks_le htick).2
  exact ⟨by omega, fires_of_running⟩

/-- A loop that has stopped without success has used up its time. -/
theorem Reach.ticks_eq (htick : 0 < options.tickInterval.toNat)
    (reach : Reach (Loop.start options path source) n loop) (stopped : loop.tickAt = none)
    (unfinished : loop.sim.session.phase ≠ .converged) :
    loop.sim.ticks = Simulation.tickLimit options := by
  obtain ⟨_, hstopped, hpos⟩ := reach.punctual.stopped stopped
  rw [Simulation.stopped_iff, reach.punctual.same] at hstopped
  have hpassed := hstopped.resolve_left unfinished
  refine Nat.le_antisymm (reach.ticks_le htick).2 (Nat.le_of_not_lt ?_)
  intro hlt
  rcases (Simulation.lt_tickLimit_iff htick).mp hlt with hzero | hroom
  · omega
  · omega

end

/-- A handler, with the reply or the time that it waits for. -/
inductive Handler where
  | reply (flight : Flight)
  | tick (now : Int)
  deriving DecidableEq, Repr

def handle (loop : Loop σ) : Handler → Loop σ
  | .reply flight => loop.onReply flight
  | .tick now => loop.onTick now

/-- The time of the handler comes first, if need be together with others. -/
def Ready (loop : Loop σ) : Handler → Prop
  | .reply flight => flight ∈ loop.sim.inFlight ∧ (∃ next ∈ loop.tickAt, flight.due ≤ next) ∧
      ∀ other ∈ loop.sim.inFlight, flight.due ≤ other.due
  | .tick now => loop.tickAt = some now ∧ ∀ flight ∈ loop.sim.inFlight, now ≤ flight.due

instance (loop : Loop σ) : DecidablePred loop.Ready
  | .reply _ => inferInstanceAs (Decidable (_ ∧ (∃ next ∈ loop.tickAt, _) ∧ _))
  | .tick _ => inferInstanceAs (Decidable (_ ∧ _))

theorem fires_handle {loop : Loop σ} {handler : Handler} (ready : loop.Ready handler) :
    loop.Fires (loop.handle handler) := by
  cases handler with
  | reply flight =>
    obtain ⟨hmem, ⟨next, hnext, hdue⟩, hleast⟩ := ready
    exact .reply hnext hmem hdue hleast
  | tick now => exact .tick ready.1 ready.2

/-- Each handler is ready when its turn comes. -/
def InTurn (loop : Loop σ) : List Handler → Prop
  | [] => True
  | handler :: handlers => loop.Ready handler ∧ InTurn (loop.handle handler) handlers

instance InTurn.decidable : ∀ (loop : Loop σ) (handlers : List Handler),
    Decidable (loop.InTurn handlers)
  | _, [] => inferInstanceAs (Decidable True)
  | loop, handler :: handlers =>
    have := InTurn.decidable (loop.handle handler) handlers
    inferInstanceAs (Decidable (loop.Ready handler ∧ InTurn (loop.handle handler) handlers))

theorem Reach.foldl {first loop : Loop σ} {n : Nat} {handlers : List Handler}
    (reach : Reach first n loop) (turns : loop.InTurn handlers) :
    Reach first (n + handlers.length) (handlers.foldl handle loop) := by
  induction handlers generalizing n loop with
  | nil => exact reach
  | cons handler handlers ih =>
    rw [List.length_cons, ← Nat.add_assoc, Nat.add_right_comm]
    exact ih (reach.next (fires_handle turns.1)) turns.2

end Loop

end PathMtu
