import PathMtu.Fault

namespace PathMtu

/-- What a random source yields: the value, the faults met on the way, and the source after it. -/
structure Draw (σ α : Type) where
  value : α
  faults : List Fault
  rest : σ

/-- A source of tokens and of filler bytes. A fill yields exactly the bytes asked for. -/
class RandomSource (σ : Type) where
  token : σ → Draw σ UInt32
  fill : σ → Nat → Draw σ (List UInt8)
  length_fill : ∀ source n, (fill source n).value.length = n

/-- The number whose digits to base 256 are the bytes, the first the highest. -/
def ofBigEndian (bytes : List UInt8) : UInt32 :=
  bytes.foldl (fun acc byte => acc <<< 8 ||| byte.toUInt32) 0

end PathMtu
