import PathMtu.Path
import PathMtu.Session
import PathMtu.Simulator.Flight

namespace PathMtu

/-- The times of a search over changing paths, in milliseconds. -/
structure Timing where
  tick : Nat := 10
  rtt : Nat := 50
  rto : Nat := 200
  deriving DecidableEq, Repr

structure Leg where
  mtu : UInt16
  lossRate : Float := 0
  seed : UInt32 := 1
  ticks : Nat
  restart : Bool := false
  stopOnConverged : Bool := true

inductive Occurrence where
  | restarted
  | replied (accepted : Bool)
  | probed (probe : Probe) (delivered : Bool)
  | ticked
  | legEnded (delivered oversize lost : Nat)
  deriving DecidableEq, Repr

/-- An occurrence, its time in milliseconds, and the session after it. -/
structure JourneyEvent (σ : Type) where
  time : Nat
  occurrence : Occurrence
  session : Session σ
  notices : List Notice
  faults : List Fault

/-- A search over changing paths, which a host restarts when it learns of a new path. Replies stay in
flight when the path changes. -/
structure Journey (σ : Type) where
  timing : Timing
  session : Session σ
  path : Path
  time : Nat
  inFlight : List Flight
  events : Array (JourneyEvent σ)

namespace Journey

variable {σ : Type}

def nanos (ms : Nat) : Int := ms * millisecond

def now (j : Journey σ) : Int := nanos j.time

def record {α : Type} (j : Journey σ) (step : Step σ α) (occurrence : Occurrence) : Journey σ :=
  { j with
    session := step.session
    events := j.events.push
      { time := j.time
        occurrence
        session := step.session
        notices := step.notices
        faults := step.faults } }

/-- A reply is looked at when the tick comes, not when it was due. -/
def arrive (j : Journey σ) (flight : Flight) : Journey σ :=
  let step := j.session.receive flight.reply j.now
  j.record step (.replied step.answer)

def receiveDue (j : Journey σ) : Journey σ :=
  let (due, later) := Flight.split j.now j.inFlight
  due.foldl arrive { j with inFlight := later }

def send (j : Journey σ) (step : Step σ (Option Probe)) (probe : Probe) : Journey σ :=
  let (reply, path) := j.path.deliver probe
  let flights := (reply.map (Flight.mk (j.now + nanos j.timing.rtt))).toList
  { j with path, inFlight := j.inFlight ++ flights }.record step (.probed probe reply.isSome)

/-- A tick without a probe is noted only when it announces something. -/
def search [RandomSource σ] (j : Journey σ) : Journey σ :=
  let step := j.session.tick j.now (nanos j.timing.rto)
  match step.answer with
  | some probe => j.send step probe
  | none =>
    if step.notices.isEmpty then { j with session := step.session } else j.record step .ticked

def tick [RandomSource σ] (j : Journey σ) : Journey σ :=
  { j with time := j.time + j.timing.tick }.receiveDue.search

/-- So many ticks, fewer if the leg ends on convergence. -/
def ticks [RandomSource σ] (stopOnConverged : Bool) : Nat → Journey σ → Journey σ
  | 0, j => j
  | n + 1, j =>
    let j := j.tick
    if stopOnConverged ∧ j.session.phase = .converged then j else ticks stopOnConverged n j

def reopen (j : Journey σ) : Journey σ :=
  j.record (j.session.restart j.now) .restarted

def endLeg (j : Journey σ) : Journey σ :=
  j.record { session := j.session, answer := () }
    (.legEnded j.path.delivered j.path.oversize j.path.lost)

/-- One leg: the path changes, the search may be opened again, and the ticks follow. -/
def travel [RandomSource σ] (device : UInt32) (j : Journey σ) (leg : Leg) : Journey σ :=
  let path := Path.ofSeed j.session.config.framing leg.mtu.toNat leg.lossRate leg.seed device
  let j := { j with path }
  let j := if leg.restart then j.reopen else j
  (ticks leg.stopOnConverged leg.ticks j).endLeg

def start (config : Config) (timing : Timing) (source : σ) : Journey σ :=
  { timing
    session := Session.start config 0 source
    path := Path.closed config.framing
    time := 0
    inFlight := []
    events := #[] }

def run [RandomSource σ] (config : Config) (timing : Timing) (source : σ) (device : UInt32)
    (legs : List Leg) : Journey σ :=
  legs.foldl (travel device) (start config timing source)

end Journey

end PathMtu
