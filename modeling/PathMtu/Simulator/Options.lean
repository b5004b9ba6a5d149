import PathMtu.Config

namespace PathMtu

/-- The parameters of a simulated search: the search itself, the path, and the caller's loop. Times
are in milliseconds. -/
structure Options where
  config : Config := {}
  pathMtu : UInt16 := 1280
  rtt : UInt32 := 50
  lossRate : Float := 0
  seed : UInt32 := 0
  tickInterval : UInt32 := 10
  duration : UInt32 := 30000
  verbose : Bool := false

inductive OptionError where
  | lossOutOfRange
  | zeroTick
  | config (error : ConfigError)
  deriving DecidableEq, Repr

namespace OptionError

def fault : OptionError → Fault
  | lossOutOfRange =>
    { category := .configuration
      code := .invalidArgument
      message := "--loss must be between 0.0 and 1.0" }
  | zeroTick =>
    { category := .configuration
      code := .invalidArgument
      message := "--tick-ms must be greater than zero" }
  | config error => error.fault

end OptionError

namespace Options

/-- The first reason that applies wins, and the search's own come last. A rate that compares with
nothing is not outside the range. -/
def validate (options : Options) : Except OptionError Unit :=
  if options.lossRate < 0 ∨ 1 < options.lossRate then .error .lossOutOfRange
  else if options.tickInterval = 0 then .error .zeroTick
  else
    match options.config.validate with
    | .ok () => .ok ()
    | .error error => .error (.config error)

end Options

end PathMtu
