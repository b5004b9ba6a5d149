import PathMtu.Session

namespace PathMtu

inductive Call where
  | tick (now rto : Int)
  | reply (reply : Reply) (now : Int)
  | restart (now : Int)
  | setFragment (size : Nat)
  deriving DecidableEq, Repr

/-- What a call answers: a probe if one is due, a verdict on a reply, or nothing. -/
inductive Answer where
  | probe (probe : Option Probe)
  | verdict (accepted : Bool)
  | done
  deriving DecidableEq, Repr

namespace Session

variable {σ : Type} [RandomSource σ]

def perform (s : Session σ) : Call → Step σ Answer
  | .tick now rto =>
    let step := s.tick now rto
    { step with answer := .probe step.answer }
  | .reply reply now =>
    let step := s.receive reply now
    { step with answer := .verdict step.answer }
  | .restart now =>
    let step := s.restart now
    { step with answer := .done }
  | .setFragment size => { session := s.setFragment size, answer := .done }

def after (s : Session σ) (calls : List Call) : Session σ :=
  calls.foldl (fun s call => (s.perform call).session) s

def answers (s : Session σ) : List Call → List Answer
  | [] => []
  | call :: calls =>
    let step := s.perform call
    step.answer :: step.session.answers calls

end Session

end PathMtu
