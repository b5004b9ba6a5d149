import PathMtu.Decimal

namespace PathMtu.Numeral

/-- Whether the text stands behind a minus sign, and the text without its sign. -/
def splitSign : List Char → Bool × List Char
  | '-' :: rest => (true, rest)
  | '+' :: rest => (false, rest)
  | text => (false, text)

/-- The value of decimal digits, if there are any and nothing else. -/
def digitsValue? (digits : List Char) : Option Nat :=
  if digits.isEmpty ∨ digits.any (!·.isDigit) then none
  else some (digits.foldl (fun n c => 10 * n + (c.toNat - '0'.toNat)) 0)

/-- A number below the bound. Behind a minus sign it counts down from the bound, as the negation of
an unsigned word does. -/
def word? (bound : Nat) (text : List Char) : Option Nat := do
  let (negative, digits) := splitSign text
  let n ← digitsValue? digits
  if n < bound then some (if negative then (bound - n) % bound else n) else none

def integer? (text : List Char) : Option Int := do
  let (negative, digits) := splitSign text
  let n ← digitsValue? digits
  some (if negative then -n else n)

/-- What stands behind the digits: nothing, or an exponent behind its letter. -/
def exponent? : List Char → Option Int
  | [] => some 0
  | letter :: rest => if letter = 'e' ∨ letter = 'E' then integer? rest else none

/-- The double nearest to a multiple of a power of ten. Powers that lead far beyond the range of
doubles on either side are not computed. -/
def scaled (size : Nat) (exponent : Int) : Float :=
  let leading := Decimal.digitCount size + exponent
  if size = 0 ∨ leading < -400 then 0
  else if 400 < leading then 1 / 0
  else Float.ofScientific size (exponent < 0) exponent.natAbs

/-- Decimal digits with perhaps a point among them and perhaps an exponent behind them. What rounds
to an infinity is refused. -/
def finite? (text : List Char) : Option Float := do
  let whole := text.takeWhile Char.isDigit
  let (fraction, rest) := match text.dropWhile Char.isDigit with
    | '.' :: rest => (rest.takeWhile Char.isDigit, rest.dropWhile Char.isDigit)
    | rest => ([], rest)
  let size ← digitsValue? (whole ++ fraction)
  let exponent ← exponent? rest
  let value := scaled size (exponent - fraction.length)
  if value.isInf then none else some value

/-- The names of what is no finite number, without regard to case. Whatever stands in brackets
behind the one that is no number at all is skipped. -/
def named? (text : List Char) : Option Float :=
  let name := String.ofList (text.map Char.toLower)
  if name = "inf" ∨ name = "infinity" then some (1 / 0)
  else if name = "nan" then some (0 / 0)
  else if text.getLast? = some ')' ∧ String.ofList ((text.map Char.toLower).take 4) = "nan(" then
    some (0 / 0)
  else none

def double? (text : List Char) : Option Float := do
  let (negative, magnitude) := splitSign text
  let value ← named? magnitude <|> finite? magnitude
  some (if negative then -value else value)

end PathMtu.Numeral
