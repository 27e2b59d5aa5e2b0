import ShapeFlow.Json.Value

/-!
# JSON numerals

A numeral is kept as its digits until its value is asked for, because a numeral too large for any
double is a fault only where its value is needed.

* `Numeral.value?`: whole numerals in the range of a word are integers, all others are doubles.
-/

namespace ShapeFlow.Json

/-- The parts of a number as it is written. -/
structure Numeral where
  negative : Bool
  whole : List Char
  fraction : List Char
  /-- The exponent part: whether it is negative, and its digits. -/
  power : Option (Bool × List Char)
deriving DecidableEq, Repr

namespace Numeral

/-- The number that digits spell. -/
def digitsValue (digits : List Char) : Nat := Nat.ofDigitChars 10 digits 0

/-- Whole digits taken while the number fits a word; the digits that are left only count. -/
def takeWhole (taken : Nat) : List Char → Nat × Nat
  | [] => (taken, 0)
  | c :: rest =>
    let next := 10 * taken + digitsValue [c]
    if next < UInt64.size then takeWhole next rest else (taken, rest.length + 1)

/-- Fraction digits taken while the number fits a word; the digits that are left are dropped. The
second result counts the digits taken. -/
def takeFraction (taken places : Nat) : List Char → Nat × Nat
  | [] => (taken, places)
  | c :: rest =>
    let next := 10 * taken + digitsValue [c]
    if next < UInt64.size then takeFraction next (places + 1) rest else (taken, places)

/-- The numeral as a decimal whose digits fit a word. -/
def decimal (n : Numeral) : Decimal :=
  let (whole, skipped) := takeWhole 0 n.whole
  let (digits, places) := takeFraction whole 0 n.fraction
  let power : Int := match n.power with
    | none => 0
    | some (negative, digits) => if negative then -digitsValue digits else digitsValue digits
  ⟨n.negative, digits, skipped - places + power⟩

/-- The value of a numeral, unless it is too large for a double. A numeral without fraction and
exponent is an integer if it lies between `-2 ^ 63` and `2 ^ 64` and is not a negative zero. -/
def value? (n : Numeral) : Option Json :=
  let whole := digitsValue n.whole
  if n.fraction.isEmpty && n.power.isNone && whole < UInt64.size then
    if !n.negative then some (.integer whole)
    else if 0 < whole && whole ≤ 0x8000000000000000 then some (.integer (-whole))
    else some (.real (-Double.ofInt whole))
  else n.decimal.stepwise?.map .real

end Numeral

end ShapeFlow.Json
