import PathMtu.Simulator.Simulation

namespace PathMtu

/-- The path that the options describe, with its loss process in any state. -/
def Options.path (options : Options) (generator : Twister) : Path :=
  { framing := options.config.framing
    mtu := options.pathMtu.toNat
    lossRate := options.lossRate
    generator }

namespace Simulation

variable {σ : Type}

/-- The same simulation with one more tick counted, as its clock shows while that tick runs. -/
def ticked (sim : Simulation σ) : Simulation σ := { sim with ticks := sim.ticks + 1 }

/-- The second half of a tick, with the time that the caller's clock shows. -/
def serveAt [RandomSource σ] (sim : Simulation σ) (now : Int) : Simulation σ :=
  let step := sim.session.tick now (2 * sim.roundTrip)
  let sim := sim.note step
  match step.answer with
  | some probe => sim.send probe now
  | none => sim

end Simulation

/-- The caller's event loop between two handlers. Its clock shows the time of the latest one. It
waits for the replies in flight and for the next tick, and for nothing more once it was stopped. -/
structure Loop (σ : Type) where
  sim : Simulation σ
  clock : Int
  tickAt : Option Int

namespace Loop

variable {σ : Type}

def start (options : Options) (path : Path) (source : σ) : Loop σ :=
  { sim := { Simulation.start options source 0 with path }
    clock := 0
    tickAt := some (options.tickInterval.toNat * millisecond) }

def onReply (loop : Loop σ) (flight : Flight) : Loop σ :=
  let sim := { loop.sim with inFlight := loop.sim.inFlight.erase flight }
  { loop with sim := sim.arrive flight, clock := flight.due }

/-- A tick reads the clock once. It either stops the loop or begins to wait for the next tick. -/
def onTick [RandomSource σ] (loop : Loop σ) (now : Int) : Loop σ :=
  let sim := loop.sim.ticked.serveAt now
  { sim
    clock := now
    tickAt :=
      if sim.session.phase = .converged ∨ sim.options.duration.toNat * millisecond ≤ now then none
      else some (now + sim.options.tickInterval.toNat * millisecond) }

/-- The loop runs a handler whose time comes first. Of several with the same time it may run any. -/
inductive Fires [RandomSource σ] (loop : Loop σ) : Loop σ → Prop
  | reply {next : Int} {flight : Flight} : loop.tickAt = some next → flight ∈ loop.sim.inFlight →
      flight.due ≤ next → (∀ other ∈ loop.sim.inFlight, flight.due ≤ other.due) →
      Fires loop (loop.onReply flight)
  | tick {now : Int} : loop.tickAt = some now → (∀ flight ∈ loop.sim.inFlight, now ≤ flight.due) →
      Fires loop (loop.onTick now)

/-- What the loop can come to, with the number of handlers that have run. -/
inductive Reach [RandomSource σ] (first : Loop σ) : Nat → Loop σ → Prop
  | start : Reach first 0 first
  | next {n : Nat} {loop later : Loop σ} : Reach first n loop → loop.Fires later →
      Reach first (n + 1) later

end Loop

end PathMtu
