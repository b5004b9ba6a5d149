namespace PathMtu.Decimal

/-- The magnitude of a finite double as a fraction of two natural numbers: 52 bits of fraction, and
before them 11 bits of exponent, which is zero for the numbers without a leading bit. -/
def magnitude (x : Float) : Nat × Nat :=
  let bits := x.toBits.toNat
  let exponent := (bits >>> 52) % 0x800
  let fraction := bits % 0x10000000000000
  let significand := if exponent = 0 then fraction else 0x10000000000000 + fraction
  let scale := max exponent 1
  if 1075 ≤ scale then (significand <<< (scale - 1075), 1)
  else (significand, 1 <<< (1075 - scale))

def isNegative (x : Float) : Bool := x.toBits >>> 63 = 1

def powerOfTen (n : Nat) : Nat := Nat.pow 10 n

/-- The quotient rounded to the nearest natural number, a half to the even one. -/
def roundDiv (numerator denominator : Nat) : Nat :=
  let quotient := numerator / denominator
  let twice := 2 * (numerator % denominator)
  if twice < denominator ∨ (twice = denominator ∧ quotient % 2 = 0) then quotient
  else quotient + 1

/-- How many decimal digits a number has; zero has none. -/
def digitCount (n : Nat) : Nat := if n = 0 then 0 else (Nat.toDigits 10 n).length

/-- The exponent of the greatest power of ten that is no larger than a positive fraction. -/
def leadingExponent (numerator denominator : Nat) : Int :=
  if denominator ≤ numerator then (digitCount (numerator / denominator) : Int) - 1
  else -(digitCount ((denominator - 1) / numerator) : Int)

/-- A positive fraction rounded to a count of digits: the digits as one number, and the exponent of
the first of them. -/
def roundToDigits (digits numerator denominator : Nat) : Nat × Int :=
  let exponent := leadingExponent numerator denominator
  let shift := (digits : Int) - 1 - exponent
  let rounded :=
    if 0 ≤ shift then roundDiv (numerator * powerOfTen shift.toNat) denominator
    else roundDiv numerator (denominator * powerOfTen (-shift).toNat)
  if rounded = powerOfTen digits then (powerOfTen (digits - 1), exponent + 1)
  else (rounded, exponent)

/-- Digits behind a point, without zeros at the end; no digits, no point. -/
def fractionText (digits : List Char) : String :=
  let kept := (digits.reverse.dropWhile (· = '0')).reverse
  if kept.isEmpty then "" else "." ++ String.ofList kept

/-- An exponent has a sign and at least two digits. -/
def exponentText (exponent : Int) : String :=
  let size := toString exponent.natAbs
  (if exponent < 0 then "e-" else "e+") ++ (if size.length < 2 then "0" else "") ++ size

def positionalText (digits : List Char) (exponent : Int) : String :=
  if exponent < 0 then
    "0" ++ fractionText (List.replicate (exponent.natAbs - 1) '0' ++ digits)
  else
    let whole := exponent.toNat + 1
    String.ofList (digits.take whole) ++ fractionText (digits.drop whole)

def scientificText (digits : List Char) (exponent : Int) : String :=
  String.ofList (digits.take 1) ++ fractionText (digits.drop 1) ++ exponentText exponent

/-- A double with the given count of significant digits: positional from a ten-thousandth on up to
the numbers whose whole part has no more digits than that, otherwise with an exponent. -/
def general (digits : Nat) (x : Float) : String :=
  if x.isNaN then "nan"
  else
    let sign := if isNegative x then "-" else ""
    let (numerator, denominator) := magnitude x
    if x.isInf then sign ++ "inf"
    else if numerator = 0 then sign ++ "0"
    else
      let (rounded, exponent) := roundToDigits digits numerator denominator
      let written := Nat.toDigits 10 rounded
      sign ++
        (if -4 ≤ exponent ∧ exponent < digits then positionalText written exponent
        else scientificText written exponent)

end PathMtu.Decimal
