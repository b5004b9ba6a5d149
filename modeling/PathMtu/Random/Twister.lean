namespace PathMtu

/-- The 32-bit twister of period 2 ^ 19937 - 1: 624 words of state, and how many of them have been
given out. -/
structure Twister where
  words : Array UInt32
  used : Nat

namespace Twister

def size : Nat := 624

/-- The word that is mixed into word `i` stands this far ahead of it. -/
def offset : Nat := 397

def seedMultiplier : UInt32 := 1812433253
def mixMask : UInt32 := 0x9908b0df
def highBit : UInt32 := 0x80000000
def lowBits : UInt32 := 0x7fffffff

/-- Each word of the seeded state follows from the word before it and its place. -/
def seedWords (seed : UInt32) : Nat → Array UInt32
  | 0 => #[seed]
  | i + 1 =>
    let words := seedWords seed i
    let last := words.getD i 0
    words.push (seedMultiplier * (last ^^^ (last >>> 30)) + UInt32.ofNat (i + 1))

/-- A twister with nothing given out yet; the first output renews the state. -/
def seeded (seed : UInt32) : Twister := ⟨seedWords seed (size - 1), size⟩

/-- Word `i` of the next state. Words before it are already the next state's. -/
def renewWord (words : Array UInt32) (i : Nat) : Array UInt32 :=
  let joined := (words.getD i 0 &&& highBit) ||| (words.getD ((i + 1) % size) 0 &&& lowBits)
  let mask := if joined &&& 1 = 0 then 0 else mixMask
  words.setIfInBounds i (words.getD ((i + offset) % size) 0 ^^^ (joined >>> 1) ^^^ mask)

def renew (words : Array UInt32) : Array UInt32 :=
  (List.range size).foldl renewWord words

def temper (word : UInt32) : UInt32 :=
  let a := word ^^^ (word >>> 11)
  let b := a ^^^ ((a <<< 7) &&& 0x9d2c5680)
  let c := b ^^^ ((b <<< 15) &&& 0xefc60000)
  c ^^^ (c >>> 18)

def next (twister : Twister) : UInt32 × Twister :=
  if twister.used < size then
    (temper (twister.words.getD twister.used 0), { twister with used := twister.used + 1 })
  else
    let words := renew twister.words
    (temper (words.getD 0 0), ⟨words, 1⟩)

/-- The twister once it has given out so many more outputs. -/
def skip (twister : Twister) : Nat → Twister
  | 0 => twister
  | n + 1 => twister.next.2.skip n

theorem skip_add (twister : Twister) (m n : Nat) :
    twister.skip (m + n) = (twister.skip m).skip n := by
  induction m generalizing twister with
  | zero => rw [Nat.zero_add]; rfl
  | succ m ih => rw [Nat.succ_add]; exact ih twister.next.2

/-- The top eight bits of one output. -/
def nextByte (twister : Twister) : UInt8 × Twister :=
  let (output, rest) := twister.next
  ((output >>> 24).toUInt8, rest)

def bytes (twister : Twister) : Nat → List UInt8 × Twister
  | 0 => ([], twister)
  | n + 1 =>
    let (byte, rest) := twister.nextByte
    let (more, last) := rest.bytes n
    (byte :: more, last)

theorem length_bytes (twister : Twister) (n : Nat) : (twister.bytes n).1.length = n := by
  induction n generalizing twister with
  | zero => rfl
  | succ n ih => simp [bytes, ih]

/-- The byte at a place of the twister's stream, which has one byte for each output. -/
def byteAt (twister : Twister) (place : Nat) : UInt8 :=
  (twister.skip place).nextByte.1

theorem bytes_eq (twister : Twister) (n : Nat) :
    twister.bytes n = ((List.range n).map twister.byteAt, twister.skip n) := by
  induction n generalizing twister with
  | zero => rfl
  | succ n ih =>
    show (twister.nextByte.1 :: (twister.nextByte.2.bytes n).1, (twister.nextByte.2.bytes n).2) = _
    rw [ih, List.range_succ_eq_map, List.map_cons, List.map_map]
    rfl

theorem byteAt_skip (twister : Twister) (m n : Nat) :
    (twister.skip m).byteAt n = twister.byteAt (m + n) := by
  unfold byteAt
  rw [skip_add]

def belowOne : Float := Float.ofBits 0x3fefffffffffffff

/-- A double in the unit interval, made of two outputs, the second the higher half. A sum that
rounds up to one gives the largest double below one. -/
def nextUnit (twister : Twister) : Float × Twister :=
  let (low, rest) := twister.next
  let (high, last) := rest.next
  let unit := (low.toFloat + high.toFloat * 4294967296) / 18446744073709551616
  (if unit < 1 then unit else belowOne, last)

end Twister

end PathMtu
