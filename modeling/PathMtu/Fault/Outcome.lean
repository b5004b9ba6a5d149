import PathMtu.Fault

namespace PathMtu

abbrev Outcome (α : Type) := Except Fault α

/-- Asking an outcome for the half that it does not hold. -/
inductive Misuse where
  | valueOfFailure
  | faultOfSuccess
  deriving DecidableEq, Repr

/-- An outcome whose success carries no value is named apart in the text. -/
def Misuse.message (carriesValue : Bool) (misuse : Misuse) : String :=
  let subject := if carriesValue then "Result" else "Result<void>"
  match misuse with
  | .valueOfFailure => s!"Attempted to access value of failed {subject}"
  | .faultOfSuccess => s!"Attempted to access error of successful {subject}"

namespace Outcome

variable {α : Type}

def succeeded (outcome : Outcome α) : Bool :=
  match outcome with
  | .ok _ => true
  | .error _ => false

def value (outcome : Outcome α) : Except Misuse α :=
  match outcome with
  | .ok a => .ok a
  | .error _ => .error .valueOfFailure

def fault (outcome : Outcome α) : Except Misuse Fault :=
  match outcome with
  | .ok _ => .error .faultOfSuccess
  | .error f => .ok f

def valueOr (outcome : Outcome α) (fallback : α) : α :=
  match outcome with
  | .ok a => a
  | .error _ => fallback

end Outcome

end PathMtu
