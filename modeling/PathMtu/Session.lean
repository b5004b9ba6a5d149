import PathMtu.Config
import PathMtu.Message
import PathMtu.Random.Source
import PathMtu.Session.Notice

namespace PathMtu

structure Outstanding where
  candidate : Nat
  token : UInt32
  sentAt : Int
  deriving DecidableEq, Repr

structure Tally where
  sent : Nat := 0
  timedOut : Nat := 0
  accepted : Nat := 0
  rejected : Nat := 0
  deriving DecidableEq, Repr

inductive Phase where
  | idle
  | probing
  | converged
  deriving DecidableEq, Repr

namespace Phase

def name : Phase → String
  | idle => "IDLE"
  | probing => "PROBING"
  | converged => "CONVERGED"

def ofNumber? (n : Int) : Option Phase :=
  if n = 0 then some idle
  else if n = 1 then some probing
  else if n = 2 then some converged
  else none

/-- The name of a numbered phase; other numbers have one name together. -/
def nameOfNumber (n : Int) : String :=
  match ofNumber? n with
  | some phase => phase.name
  | none => "UNKNOWN"

end Phase

/-- A search for the largest datagram that a path carries. `low` is the largest confirmed size and
`high` the largest size not ruled out. All times are nanoseconds of one clock. -/
structure Session (σ : Type) where
  config : Config
  source : σ
  fragment : Nat
  low : Nat
  high : Nat
  lastActivity : Int
  outstanding : Option Outstanding
  tally : Tally

/-- What a call on a session leaves: the session after it, its answer, and what was announced and
reported on the way. -/
structure Step (σ α : Type) where
  session : Session σ
  answer : α
  notices : List Notice := []
  faults : List Fault := []

/-- A probe counts as lost no sooner than this, in nanoseconds. -/
def leastProbeTimeout : Int := 200000000

def probeTimeout (rto : Int) : Int := max rto leastProbeTimeout

namespace Session

variable {σ : Type}

def start (config : Config) (now : Int) (source : σ) : Session σ :=
  { config
    source
    fragment := config.fragmentSize.toNat
    low := config.lowest
    high := config.highest
    lastActivity := now
    outstanding := none
    tally := {} }

def openingNotices (config : Config) : List Notice :=
  if config.maxSize < config.minSize then [.closedRange config.maxSize config.minSize] else []

def Converged (s : Session σ) : Prop := s.high - s.low ≤ s.config.threshold.toNat

instance (s : Session σ) : Decidable s.Converged := inferInstanceAs (Decidable (_ ≤ _))

/-- An outstanding probe comes first: a session that waits for a reply has not converged. -/
def phase (s : Session σ) : Phase :=
  if s.outstanding.isSome then .probing
  else if s.Converged then .converged
  else .idle

/-- The upper bound once a probe of the candidate size is lost. Size zero rules nothing out, and
a lost probe at the lower bound does not refute that bound. -/
def highAfterLoss (s : Session σ) (candidate : Nat) : Nat :=
  max (if candidate = 0 then s.high else min s.high (candidate - 1)) s.low

def expire (s : Session σ) (probe : Outstanding) (now : Int) : Session σ :=
  { s with
    high := s.highAfterLoss probe.candidate
    outstanding := none
    lastActivity := now
    tally := { s.tally with timedOut := s.tally.timedOut + 1 } }

/-- Lowers the upper bound to what the receiver takes, though not below the lower bound. -/
def clamp (s : Session σ) : Session σ :=
  { s with high := if s.config.cap < s.high then max s.config.cap s.low else s.high }

def settle (s : Session σ) : Session σ := { s with fragment := s.low }

def settleNotices (s : Session σ) : List Notice :=
  if s.fragment = s.low then [] else [.settled s.fragment s.low s.high]

/-- The size halfway between the bounds, rounded down. -/
def midpoint (s : Session σ) : Nat := (s.low + s.high) / 2

def target (s : Session σ) : Nat := min s.midpoint s.config.cap

/-- Builds and records the next probe. The payload is drawn before the token. -/
def issue [RandomSource σ] (s : Session σ) (now : Int) : Step σ Probe :=
  let filled := RandomSource.fill s.source (s.config.framing.payloadLength s.target)
  let drawn := RandomSource.token filled.rest
  let probe : Probe := ⟨s.target, drawn.value, filled.value.toArray⟩
  { session :=
      { s with
        source := drawn.rest
        outstanding := some ⟨s.midpoint, drawn.value, now⟩
        lastActivity := now
        tally := { s.tally with sent := s.tally.sent + 1 } }
    answer := probe
    notices := [.sent probe.token probe.size probe.payload.size s.low s.high]
    faults := filled.faults ++ drawn.faults }

/-- The tick of a session that waits for a reply. -/
def await (s : Session σ) (probe : Outstanding) (now rto : Int) : Step σ (Option Probe) :=
  if probeTimeout rto < now - probe.sentAt then
    let after := s.expire probe now
    { session := after
      answer := none
      notices := [.timedOut probe.token probe.candidate after.low after.high] }
  else { session := s, answer := none }

/-- The tick of a session that waits for nothing and whose upper bound is within the cap. -/
def proceed [RandomSource σ] (s : Session σ) (now : Int) : Step σ (Option Probe) :=
  if s.Converged then { session := s.settle, answer := none, notices := s.settleNotices }
  else if now - s.lastActivity < s.config.intervalNanos then { session := s, answer := none }
  else
    let issued := s.issue now
    { session := issued.session
      answer := some issued.answer
      notices := issued.notices
      faults := issued.faults }

/-- Moves the search on: a lost probe is given up, a narrow range is published, and otherwise a
new probe is issued when one is due. -/
def tick [RandomSource σ] (s : Session σ) (now rto : Int) : Step σ (Option Probe) :=
  if s.config.enabled then
    match s.outstanding with
    | some probe => s.await probe now rto
    | none => s.clamp.proceed now
  else { session := s, answer := none }

/-- A reply confirms its size, also one above the upper bound. -/
def confirm (s : Session σ) (size : Nat) (now : Int) : Session σ :=
  { s with
    low := max s.low size
    high := max s.high (max s.low size)
    fragment := max s.low size
    outstanding := none
    lastActivity := now
    tally := { s.tally with accepted := s.tally.accepted + 1 } }

def reject (s : Session σ) : Session σ :=
  { s with tally := { s.tally with rejected := s.tally.rejected + 1 } }

/-- A reply belongs to the outstanding probe when it carries its token, whatever its size. -/
def Expects (s : Session σ) (reply : Reply) : Prop :=
  s.outstanding.map Outstanding.token = some reply.token

instance (s : Session σ) (reply : Reply) : Decidable (s.Expects reply) :=
  inferInstanceAs (Decidable (_ = _))

/-- Accepts a reply that is expected and counts any other as rejected. -/
def receive (s : Session σ) (reply : Reply) (now : Int) : Step σ Bool :=
  if s.Expects reply then
    let after := s.confirm reply.size now
    { session := after
      answer := true
      notices := [.confirmed reply.token reply.size after.fragment after.low after.high] }
  else { session := s.reject, answer := false }

/-- Opens the search again with the configured limits. The fragment size stays until the next
reply or convergence, and the tally goes on. -/
def restart (s : Session σ) (now : Int) : Step σ Unit :=
  { session :=
      { s with
        low := s.config.lowest
        high := s.config.highest
        outstanding := none
        lastActivity := now }
    answer := ()
    notices := [.restarted s.low s.high s.fragment] }

def setFragment (s : Session σ) (size : Nat) : Session σ := { s with fragment := size }

end Session

end PathMtu
