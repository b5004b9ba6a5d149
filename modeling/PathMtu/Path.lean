import PathMtu.Message
import PathMtu.Random.Twister

namespace PathMtu

inductive Fate where
  | delivered
  | oversize
  | lost
  deriving DecidableEq, Repr

/-- A path with a fixed MTU and random loss. It drops in silence what exceeds the MTU; a peer
at its far end answers the rest, unless it is lost. -/
structure Path where
  framing : Framing
  mtu : Nat
  lossRate : Float
  generator : Twister
  delivered : Nat := 0
  oversize : Nat := 0
  lost : Nat := 0

namespace Path

/-- Seed zero stands for a seed that the device provides. -/
def effectiveSeed (seed device : UInt32) : UInt32 :=
  if seed = 0 then device else seed

def ofSeed (framing : Framing) (mtu : Nat) (lossRate : Float) (seed device : UInt32) : Path :=
  { framing, mtu, lossRate, generator := Twister.seeded (effectiveSeed seed device) }

def closed (framing : Framing) : Path := ofSeed framing 0 0 1 1

def Fits (path : Path) (probe : Probe) : Prop := probe.encodedSize path.framing ≤ path.mtu

instance (path : Path) (probe : Probe) : Decidable (path.Fits probe) :=
  inferInstanceAs (Decidable (_ ≤ _))

/-- The next draw of the loss process, which costs two outputs whatever the rate. -/
def drawLoss (path : Path) : Bool × Twister :=
  let (unit, rest) := path.generator.nextUnit
  (unit < path.lossRate, rest)

/-- An oversize probe does not touch the loss process. -/
def fate (path : Path) (probe : Probe) : Fate :=
  if path.Fits probe then
    if path.drawLoss.1 then .lost else .delivered
  else .oversize

/-- Counts one more probe of the given fate and moves the loss process on. -/
def advance (path : Path) : Fate → Path
  | .delivered => { path with generator := path.drawLoss.2, delivered := path.delivered + 1 }
  | .oversize => { path with oversize := path.oversize + 1 }
  | .lost => { path with generator := path.drawLoss.2, lost := path.lost + 1 }

/-- Sends a probe. The peer's reply comes back if the probe is delivered. -/
def deliver (path : Path) (probe : Probe) : Option Reply × Path :=
  let fate := path.fate probe
  (if fate = .delivered then some probe.reply else none, path.advance fate)

end Path

end PathMtu
