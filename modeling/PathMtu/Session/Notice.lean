import PathMtu.Line

namespace PathMtu

/-- What a session announces. Bounds are those after the event, except before a restart. -/
inductive Notice where
  | closedRange (maximum minimum : UInt16)
  | sent (token : UInt32) (size payload low high : Nat)
  | timedOut (token : UInt32) (candidate low high : Nat)
  | confirmed (token : UInt32) (size fragment low high : Nat)
  | settled (fragment low high : Nat)
  | restarted (low high fragment : Nat)
  deriving DecidableEq, Repr

namespace Notice

def text : Notice → String
  | closedRange maximum minimum =>
    s!"Warning: pmtu_max {maximum} is below pmtu_min {minimum}, " ++
      "starting with a closed search range"
  | sent token size payload low high =>
    s!"Sending PMTU probe token={token} size={size} payload={payload} range [{low}, {high}]"
  | timedOut token candidate low high =>
    s!"PMTU probe token={token} size={candidate} timed out, search range [{low}, {high}]"
  | confirmed token size fragment low high =>
    s!"PMTU probe token={token} size={size} confirmed, fragment size {fragment}, " ++
      s!"search range [{low}, {high}]"
  | settled fragment low high =>
    s!"PMTU converged: fragment size {fragment} -> {low} (range [{low}, {high}])"
  | restarted low high fragment =>
    s!"Restarting PMTU search (previous range [{low}, {high}], fragment size {fragment})"

/-- Only the warning about a closed range is a problem. -/
def channel : Notice → Channel
  | closedRange _ _ => .diagnostics
  | _ => .output

def line (notice : Notice) : Line := ⟨notice.channel, notice.text⟩

end Notice

end PathMtu
