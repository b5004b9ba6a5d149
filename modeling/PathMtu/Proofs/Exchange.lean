import PathMtu.Path
import PathMtu.Proofs.SearchRange

namespace PathMtu

/-- A probe that was handed to a path, what became of it, and the number of the path. -/
structure Trial where
  probe : Probe
  fate : Fate
  leg : Nat
  deriving DecidableEq, Repr

/-- A session and the path that carries its probes. Paths are numbered in the order in which they
come, and the probes handed to them are kept, the latest first. -/
structure Exchange (σ : Type) where
  session : Session σ
  path : Path
  leg : Nat := 0
  trials : List Trial := []

/-- What happens next: a call on the session, or another path with a search opened again. -/
inductive Move where
  | call (call : Call)
  | reroute (path : Path) (now : Int)

namespace Exchange

variable {σ : Type}

/-- The probe's reply is under way. It may arrive at any time, and more than once. -/
def Answered (e : Exchange σ) (reply : Reply) : Prop :=
  ∃ t ∈ e.trials, t.fate = .delivered ∧ t.probe.reply = reply

instance (e : Exchange σ) (reply : Reply) : Decidable (e.Answered reply) :=
  inferInstanceAs (Decidable (∃ t ∈ e.trials, _ ∧ _))

def LatestAnswered (e : Exchange σ) : Prop := e.trials.head?.map Trial.fate = some .delivered

instance (e : Exchange σ) : Decidable e.LatestAnswered := inferInstanceAs (Decidable (_ = _))

def start (config : Config) (path : Path) (now : Int) (source : σ) : Exchange σ :=
  { session := Session.start config now source, path }

def send (e : Exchange σ) (probe : Probe) : Exchange σ :=
  { e with
    path := (e.path.deliver probe).2
    trials := ⟨probe, e.path.fate probe, e.leg⟩ :: e.trials }

/-- Goes on with a session that has answered a call. A new probe is handed to the path. -/
def follow (e : Exchange σ) (session : Session σ) : Answer → Exchange σ
  | .probe (some probe) => { e with session }.send probe
  | _ => { e with session }

/-- What the network can do: a reply that arrives was sent, and a path knows the framing. -/
def Possible (e : Exchange σ) : Move → Prop
  | .call (.reply reply _) => e.Answered reply
  | .call _ => True
  | .reroute path _ => path.framing = e.session.config.framing

instance (e : Exchange σ) : DecidablePred e.Possible
  | .call (.reply reply _) => inferInstanceAs (Decidable (e.Answered reply))
  | .call (.tick _ _) => inferInstanceAs (Decidable True)
  | .call (.restart _) => inferInstanceAs (Decidable True)
  | .call (.setFragment _) => inferInstanceAs (Decidable True)
  | .reroute _ _ => inferInstanceAs (Decidable (_ = _))

/-- The path stays the same, and no tick gives up a probe that was answered. -/
def Patient (e : Exchange σ) : Move → Prop
  | .call (.tick now rto) => ∀ probe ∈ e.session.outstanding, e.LatestAnswered →
      now - probe.sentAt ≤ probeTimeout rto
  | .call (.reply reply _) => e.Answered reply
  | .call _ => True
  | .reroute _ _ => False

instance (e : Exchange σ) : DecidablePred e.Patient
  | .call (.tick _ _) => inferInstanceAs (Decidable (∀ probe ∈ e.session.outstanding, _ → _))
  | .call (.reply reply _) => inferInstanceAs (Decidable (e.Answered reply))
  | .call (.restart _) => inferInstanceAs (Decidable True)
  | .call (.setFragment _) => inferInstanceAs (Decidable True)
  | .reroute _ _ => inferInstanceAs (Decidable False)

theorem Patient.possible {e : Exchange σ} {move : Move} (h : e.Patient move) :
    e.Possible move := by
  cases move with
  | call call =>
    cases call with
    | reply reply now => exact h
    | _ => trivial
  | reroute path now => exact h.elim

variable [RandomSource σ]

def play (e : Exchange σ) : Move → Exchange σ
  | .call call => e.follow (e.session.perform call).session (e.session.perform call).answer
  | .reroute path now =>
    { e with session := (e.session.restart now).session, path, leg := e.leg + 1 }

/-- The states of all runs in which every move keeps to the rule. -/
inductive Reach (rule : Exchange σ → Move → Prop) (first : Exchange σ) : Exchange σ → Prop
  | start : Reach rule first first
  | next {e : Exchange σ} {move : Move} : Reach rule first e → rule e move →
      Reach rule first (e.play move)

theorem Reach.mono {rule weaker : Exchange σ → Move → Prop} {first e : Exchange σ}
    (imp : ∀ e move, rule e move → weaker e move) (run : Reach rule first e) :
    Reach weaker first e := by
  induction run with
  | start => exact .start
  | next _ hr ih => exact .next ih (imp _ _ hr)

def Keeps (rule : Exchange σ → Move → Prop) (e : Exchange σ) : List Move → Prop
  | [] => True
  | move :: moves => rule e move ∧ Keeps rule (e.play move) moves

instance Keeps.decidable (rule : Exchange σ → Move → Prop) [∀ e, DecidablePred (rule e)] :
    ∀ (e : Exchange σ) (moves : List Move), Decidable (Keeps rule e moves)
  | _, [] => inferInstanceAs (Decidable True)
  | e, move :: moves =>
    have := Keeps.decidable rule (e.play move) moves
    inferInstanceAs (Decidable (rule e move ∧ Keeps rule (e.play move) moves))

theorem Reach.foldl {rule : Exchange σ → Move → Prop} {first e : Exchange σ} {moves : List Move}
    (run : Reach rule first e) (keeps : Keeps rule e moves) :
    Reach rule first (moves.foldl play e) := by
  induction moves generalizing e with
  | nil => exact run
  | cons move moves ih => exact ih (run.next keeps.1) keeps.2

end Exchange

end PathMtu
