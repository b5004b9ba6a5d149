import PathMtu.Random.Source

namespace PathMtu

/-- Tokens that count up from a first one, and one filler byte for all. -/
structure CountingSource where
  next : UInt32 := 1000
  filler : UInt8 := 165

instance : RandomSource CountingSource where
  token source := ⟨source.next, [], { source with next := source.next + 1 }⟩
  fill source n := ⟨List.replicate n source.filler, [], source⟩
  length_fill _ _ := List.length_replicate

/-- Listed tokens, used in turn and over again; filler bytes count up across fills. -/
structure ScriptedSource where
  tokens : List UInt32
  tokensUsed : Nat := 0
  bytesUsed : Nat := 0

namespace ScriptedSource

/-- An empty list of tokens stands for zeros. -/
def tokenAt (source : ScriptedSource) (n : Nat) : UInt32 :=
  source.tokens.getD (n % source.tokens.length) 0

end ScriptedSource

instance : RandomSource ScriptedSource where
  token source :=
    ⟨source.tokenAt source.tokensUsed, [], { source with tokensUsed := source.tokensUsed + 1 }⟩
  fill source n :=
    ⟨(List.range' source.bytesUsed n).map UInt8.ofNat, [],
      { source with bytesUsed := source.bytesUsed + n }⟩
  length_fill _ _ := by simp

end PathMtu
