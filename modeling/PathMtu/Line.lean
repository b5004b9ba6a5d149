namespace PathMtu

inductive Channel where
  | output
  | diagnostics
  deriving DecidableEq, Repr

structure Line where
  channel : Channel
  text : String
  deriving DecidableEq, Repr

namespace Line

def output (text : String) : Line := ⟨.output, text⟩
def diagnostic (text : String) : Line := ⟨.diagnostics, text⟩

/-- The lines of one channel in order, each ended by a line break. -/
def render (channel : Channel) (lines : List Line) : String :=
  String.join ((lines.filter fun line => line.channel = channel).map fun line => line.text ++ "\n")

end Line

end PathMtu
