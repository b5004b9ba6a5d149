import PathMtu.Framing

namespace PathMtu

/-- The parameters of a search. Sizes are in bytes, the interval is in milliseconds. -/
structure Config where
  enabled : Bool := true
  minSize : UInt16 := 576
  maxSize : UInt16 := 1400
  interval : Int64 := 5000
  threshold : UInt16 := 16
  receiveBuffer : UInt64 := 1500
  framing : Framing := {}
  fragmentSize : UInt16 := 1024
  deriving DecidableEq, Repr

inductive ConfigError where
  | zeroMinimum
  | minimumAboveMaximum (minimum maximum : UInt16)
  | zeroFragment
  | bufferBelowMinimum (buffer : UInt64) (minimum : UInt16)
  | negativeInterval
  deriving DecidableEq, Repr

namespace ConfigError

def message : ConfigError → String
  | zeroMinimum => "pmtu_min must be greater than zero"
  | minimumAboveMaximum minimum maximum => s!"pmtu_min ({minimum}) exceeds pmtu_max ({maximum})"
  | zeroFragment => "fragment_size must be greater than zero"
  | bufferBelowMinimum buffer minimum =>
    s!"receive_buffer_max_size ({buffer}) is smaller than pmtu_min ({minimum})"
  | negativeInterval => "pmtu_interval must not be negative"

def fault (error : ConfigError) : Fault :=
  { category := .configuration, code := .invalidConfiguration, message := error.message }

end ConfigError

namespace Config

/-- The first reason that applies wins. -/
def validate (config : Config) : Except ConfigError Unit :=
  if config.minSize = 0 then .error .zeroMinimum
  else if config.maxSize < config.minSize then
    .error (.minimumAboveMaximum config.minSize config.maxSize)
  else if config.fragmentSize = 0 then .error .zeroFragment
  else if config.receiveBuffer.toNat < config.minSize.toNat then
    .error (.bufferBelowMinimum config.receiveBuffer config.minSize)
  else if config.interval < 0 then .error .negativeInterval
  else .ok ()

/-- The size at which a search starts from below. -/
def lowest (config : Config) : Nat := config.minSize.toNat

/-- The size at which a search starts from above. Inverted limits close the range. -/
def highest (config : Config) : Nat := max config.maxSize.toNat config.minSize.toNat

def largestSize : Nat := 65535

/-- The largest datagram that the receiver takes in one piece. -/
def cap (config : Config) : Nat := min config.receiveBuffer.toNat largestSize

/-- The interval in nanoseconds. The product keeps the 64 bits of the interval and wraps. -/
def intervalNanos (config : Config) : Int := (config.interval * 1000000).toInt

end Config

end PathMtu
