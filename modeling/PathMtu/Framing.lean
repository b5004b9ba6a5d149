import PathMtu.Fault.Outcome

namespace PathMtu

/-- How datagrams are compressed. Every number is a scheme; three have names. -/
structure Compression where
  number : UInt8
  deriving DecidableEq, Repr

namespace Compression

def uncompressed : Compression := ⟨0⟩
def zlib : Compression := ⟨1⟩
def lz4 : Compression := ⟨2⟩

def name (scheme : Compression) : String :=
  if scheme = uncompressed then "none"
  else if scheme = zlib then "zlib"
  else if scheme = lz4 then "lz4"
  else "unknown"

def ofName? (name : String) : Option Compression :=
  if name = "none" then some uncompressed
  else if name = "zlib" then some zlib
  else if name = "lz4" then some lz4
  else none

def unknownName (name : String) : Fault :=
  { category := .configuration
    code := .invalidArgument
    message := s!"Unknown compression scheme: {name}" }

def parse (name : String) : Outcome Compression :=
  match ofName? name with
  | some scheme => .ok scheme
  | none => .error (unknownName name)

end Compression

/-- What every datagram carries besides its commands. -/
structure Framing where
  compression : Compression := Compression.uncompressed
  checksums : Bool := false
  deriving DecidableEq, Repr

namespace Framing

/-- The number of commands in a datagram. This and the following fields are measured in bytes. -/
def countWidth : Nat := 1

def markWidth : Nat := 1

def plainSizeWidth : Nat := 4

def checksumWidth : Nat := 4

def lengthWidth : Nat := 2

def typeWidth : Nat := 1

def sizeWidth : Nat := 2

def tokenWidth : Nat := 4

def payloadLengthWidth : Nat := 2

/-- A probe carries at least one byte, even if the framing alone exceeds its size. -/
def leastPayload : Nat := 1

end Framing

/-- Only lz4 stores the uncompressed size behind the marker. -/
def Compression.markSize (scheme : Compression) : Nat :=
  if scheme = lz4 then Framing.markWidth + Framing.plainSizeWidth
  else Framing.markWidth

namespace Framing

def checksumSize (framing : Framing) : Nat :=
  if framing.checksums then checksumWidth else 0

/-- What a datagram carries before and behind its commands. -/
def headerSize (framing : Framing) : Nat :=
  countWidth + framing.compression.markSize + framing.checksumSize

/-- What a probe carries besides its payload. -/
def probeHeaderSize : Nat :=
  lengthWidth + typeWidth + sizeWidth + tokenWidth + payloadLengthWidth

/-- The bytes of a datagram with one probe that are not the probe's payload. -/
def overhead (framing : Framing) : Nat :=
  framing.headerSize + probeHeaderSize

/-- The payload with which a datagram of one probe reaches the target size. -/
def payloadLength (framing : Framing) (target : Nat) : Nat :=
  if target ≤ framing.overhead then leastPayload else target - framing.overhead

/-- The size of a datagram of one probe with so many payload bytes. -/
def encodedSize (framing : Framing) (payload : Nat) : Nat :=
  framing.overhead + payload

theorem payloadLength_eq_max (framing : Framing) (target : Nat) :
    framing.payloadLength target = max 1 (target - framing.overhead) := by
  unfold payloadLength leastPayload
  split <;> omega

theorem encodedSize_payloadLength (framing : Framing) (target : Nat) :
    framing.encodedSize (framing.payloadLength target) = max target (framing.overhead + 1) := by
  unfold encodedSize payloadLength leastPayload
  split <;> omega

end Framing

end PathMtu
