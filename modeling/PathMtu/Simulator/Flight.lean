import PathMtu.Message

namespace PathMtu

/-- Nanoseconds in a millisecond. -/
def millisecond : Int := 1000000

structure Flight where
  due : Int
  reply : Reply
  deriving DecidableEq, Repr

/-- The replies that arrive by now and those still on their way, both oldest first. -/
def Flight.split (now : Int) (flights : List Flight) : List Flight × List Flight :=
  flights.span fun flight => flight.due ≤ now

end PathMtu
