import PathMtu.Fault.Log
import PathMtu.Path
import PathMtu.Session
import PathMtu.Simulator.Flight
import PathMtu.Simulator.Options

namespace PathMtu

/-- A search on a simulated path, on a clock that starts at zero and moves in ticks. -/
structure Simulation (σ : Type) where
  options : Options
  session : Session σ
  path : Path
  ticks : Nat
  inFlight : List Flight
  lines : Array Line

namespace Simulation

variable {σ : Type}

def pathOf (options : Options) (device : UInt32) : Path :=
  Path.ofSeed options.config.framing options.pathMtu.toNat options.lossRate options.seed device

def start (options : Options) (source : σ) (device : UInt32) : Simulation σ :=
  { options
    session := Session.start options.config 0 source
    path := pathOf options device
    ticks := 0
    inFlight := []
    lines := ((Session.openingNotices options.config).map Notice.line).toArray }

def now (sim : Simulation σ) : Int := sim.ticks * sim.options.tickInterval.toNat * millisecond

def roundTrip (sim : Simulation σ) : Int := sim.options.rtt.toNat * millisecond

def note {α : Type} (sim : Simulation σ) (step : Step σ α) : Simulation σ :=
  { sim with
    session := step.session
    lines := sim.lines
      ++ step.faults.map (fun fault => Line.diagnostic fault.logLine)
      ++ step.notices.map Notice.line }

/-- A reply arrives at the moment it is due. -/
def arrive (sim : Simulation σ) (flight : Flight) : Simulation σ :=
  sim.note (sim.session.receive flight.reply flight.due)

/-- All replies due by now arrive. A reply that is due at a tick comes before the tick. -/
def receiveDue (sim : Simulation σ) (now : Int) : Simulation σ :=
  let (due, later) := Flight.split now sim.inFlight
  due.foldl arrive { sim with inFlight := later }

def datagramLine (sim : Simulation σ) (probe : Probe) (delivered : Bool) : Line :=
  let size := probe.encodedSize sim.options.config.framing
  let fate := if delivered then "delivered" else "dropped"
  Line.output s!"  datagram {size} bytes -> {fate}"

/-- Hands a probe to the path; a reply is back after one round trip. -/
def send (sim : Simulation σ) (probe : Probe) (now : Int) : Simulation σ :=
  let (reply, path) := sim.path.deliver probe
  { sim with
    path
    inFlight := sim.inFlight ++ (reply.map (Flight.mk (now + sim.roundTrip))).toList
    lines :=
      if sim.options.verbose then sim.lines.push (sim.datagramLine probe reply.isSome)
      else sim.lines }

/-- One tick of the caller's loop. A probe may wait for two round trips. -/
def tick [RandomSource σ] (sim : Simulation σ) : Simulation σ :=
  let sim := { sim with ticks := sim.ticks + 1 }
  let sim := sim.receiveDue sim.now
  let step := sim.session.tick sim.now (2 * sim.roundTrip)
  let sim := sim.note step
  match step.answer with
  | some probe => sim.send probe sim.now
  | none => sim

/-- The loop stops on convergence, and once the duration has passed. -/
def Stopped (sim : Simulation σ) : Prop :=
  sim.session.phase = .converged ∨ sim.options.duration.toNat * millisecond ≤ sim.now

instance (sim : Simulation σ) : Decidable sim.Stopped := inferInstanceAs (Decidable (_ ∨ _))

/-- Ticks until the loop stops, at most so many. -/
def advance [RandomSource σ] : Nat → Simulation σ → Simulation σ
  | 0, sim => sim
  | n + 1, sim =>
    let sim := sim.tick
    if sim.Stopped then sim else advance n sim

/-- The ticks that fit into the duration, rounded up; at least one takes place. -/
def tickLimit (options : Options) : Nat :=
  let tick := options.tickInterval.toNat
  max 1 ((options.duration.toNat + tick - 1) / tick)

/-- A whole run. The bound on its ticks is not felt: the duration has passed by then. -/
def run [RandomSource σ] (options : Options) (source : σ) (device : UInt32) : Simulation σ :=
  advance (tickLimit options) (start options source device)

/-- Zero when the search has converged or was not asked for. -/
def exitStatus (sim : Simulation σ) : Nat :=
  if sim.session.phase = .converged ∨ sim.options.config.enabled = false then 0 else 2

end Simulation

end PathMtu
