import PathMtu.Random.Source
import PathMtu.Random.Twister

namespace PathMtu

/-- The reason that each call gives, by the number of the call. -/
structure Reasons where
  ofCall : Nat → String

/-- A text stands for the same reason each time. -/
instance : Coe String Reasons := ⟨fun text => ⟨fun _ => text⟩⟩

/-- The system's generator: an endless stream of bytes, read call by call. Some calls fail; those
read nothing and give a reason. -/
structure SystemEntropy where
  stream : Nat → UInt8
  fails : Nat → Bool
  reason : Reasons
  calls : Nat := 0
  position : Nat := 0

namespace SystemEntropy

def read (entropy : SystemEntropy) (n : Nat) : Option (List UInt8) × SystemEntropy :=
  let called := { entropy with calls := entropy.calls + 1 }
  if entropy.fails entropy.calls then (none, called)
  else
    (some ((List.range' entropy.position n).map entropy.stream),
      { called with position := entropy.position + n })

/-- The reason to report after a call has failed. -/
def latestReason (entropy : SystemEntropy) : String := entropy.reason.ofCall (entropy.calls - 1)

/-- One call can be asked for this many bytes at most. -/
def callLimit : Nat := 2147483647

/-- How many bytes each call is asked for when so many are needed. -/
def callSizes (n : Nat) : List Nat :=
  List.replicate (n / callLimit) callLimit ++ if n % callLimit = 0 then [] else [n % callLimit]

theorem foldr_add_replicate (k size rest : Nat) :
    (List.replicate k size).foldr (· + ·) rest = k * size + rest := by
  induction k with
  | zero => rw [Nat.zero_mul, Nat.zero_add]; rfl
  | succ k ih =>
    rw [List.replicate_succ, List.foldr_cons, ih]
    show size + (k * size + rest) = (k + 1) * size + rest
    rw [Nat.succ_mul]
    omega

theorem total_callSizes (n : Nat) : (callSizes n).foldr (· + ·) 0 = n := by
  have hlast : (if n % callLimit = 0 then [] else [n % callLimit]).foldr (· + ·) 0 =
      n % callLimit := by
    split
    case isTrue h => exact h.symm
    case isFalse => rfl
  unfold callSizes
  rw [List.foldr_append, hlast, foldr_add_replicate, Nat.div_add_mod']

/-- Calls one after the other, up to the first that fails. What was read before it is kept. -/
def readEach (entropy : SystemEntropy) : List Nat → List UInt8 × SystemEntropy
  | [] => ([], entropy)
  | n :: sizes =>
    match entropy.read n with
    | (none, called) => ([], called)
    | (some bytes, called) =>
      let (more, last) := called.readEach sizes
      (bytes ++ more, last)

theorem length_readEach_le (entropy : SystemEntropy) (sizes : List Nat) :
    (entropy.readEach sizes).1.length ≤ sizes.foldr (· + ·) 0 := by
  induction sizes generalizing entropy with
  | nil => exact Nat.le_refl 0
  | cons n sizes ih =>
    unfold readEach read
    rw [List.foldr_cons]
    by_cases hf : entropy.fails entropy.calls
    · simp [hf]
    · simpa [hf] using ih _

end SystemEntropy

/-- A source on the system's generator. A failed call is reported and answered by a twister. -/
structure SecureSource where
  entropy : SystemEntropy
  fallback : Twister

namespace SecureSource

def failure (reason : String) : Fault :=
  { category := .external
    code := .externalLibrary
    message := s!"RAND_bytes failed, using fallback generator: {reason}" }

/-- The bytes that the system's generator fails to give come from the twister. -/
def fill (source : SecureSource) (n : Nat) : Draw SecureSource (List UInt8) :=
  let (bytes, entropy) := source.entropy.readEach (SystemEntropy.callSizes n)
  if bytes.length < n then
    let (more, fallback) := source.fallback.bytes (n - bytes.length)
    ⟨bytes ++ more, [failure entropy.latestReason], ⟨entropy, fallback⟩⟩
  else ⟨bytes, [], { source with entropy }⟩

/-- A token is four bytes, the first the highest. -/
def token (source : SecureSource) : Draw SecureSource UInt32 :=
  let drawn := source.fill 4
  ⟨ofBigEndian drawn.value, drawn.faults, drawn.rest⟩

theorem length_fill (source : SecureSource) (n : Nat) : (source.fill n).value.length = n := by
  have hle := source.entropy.length_readEach_le (SystemEntropy.callSizes n)
  rw [SystemEntropy.total_callSizes] at hle
  unfold fill
  generalize source.entropy.readEach (SystemEntropy.callSizes n) = read at hle ⊢
  obtain ⟨bytes, entropy⟩ := read
  dsimp only
  split
  case isTrue h =>
    rw [List.length_append, Twister.length_bytes]
    exact Nat.add_sub_cancel' hle
  case isFalse h => exact Nat.le_antisymm hle (Nat.not_lt.mp h)

end SecureSource

instance : RandomSource SecureSource where
  token := SecureSource.token
  fill := SecureSource.fill
  length_fill := SecureSource.length_fill

end PathMtu
