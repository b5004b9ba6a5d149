import PathMtu.Framing

namespace PathMtu

/-- A request to confirm that a datagram of the advertised size arrives. -/
structure Probe where
  size : Nat
  token : UInt32
  payload : Array UInt8
  deriving DecidableEq, Repr

/-- The peer's answer, which echoes size and token of a probe. -/
structure Reply where
  size : Nat
  token : UInt32
  deriving DecidableEq, Repr

namespace Probe

def commandType : Nat := 13

def reply (probe : Probe) : Reply := ⟨probe.size, probe.token⟩

def encodedSize (probe : Probe) (framing : Framing) : Nat :=
  framing.encodedSize probe.payload.size

end Probe

def Reply.commandType : Nat := 14

end PathMtu
