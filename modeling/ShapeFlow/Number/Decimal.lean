import ShapeFlow.Number.Double

/-!
# Decimal numbers

A decimal is a whole number of powers of ten. Two readings of it as a binary number are kept apart:
the nearest one, and the stepwise one, which rounds the digits, rounds the power of ten and rounds
their product or quotient.

* `Decimal.nearest`: the nearest number, infinite from about `1.8 * 10 ^ 308` on.
* `Decimal.stepwise?`: the stepwise reading, which has no infinite result.
-/

namespace ShapeFlow

/-- The number `digits * 10 ^ exponent` with a sign. -/
structure Decimal where
  negative : Bool
  digits : Nat
  exponent : Int
deriving DecidableEq, Repr

namespace Decimal

/-- The number of decimal digits. -/
def width (n : Nat) : Nat := (Nat.toDigits 10 n).length

/-- The power of ten nearest to a double. -/
def power (n : Nat) : Double := Double.ofInt (Nat.pow 10 n)

/-- The nearest double. A decimal whose leading digit stands beyond the range of doubles needs no
arithmetic: it is infinite or zero. -/
def nearest (d : Decimal) : Double :=
  let reach := d.exponent + width d.digits
  if d.digits = 0 ∨ reach < -330 then Double.zero d.negative
  else if 310 < reach then Double.infinity d.negative
  else if 0 ≤ d.exponent then
    Double.ofQuotient d.negative (d.digits * Nat.pow 10 d.exponent.toNat) 1
  else Double.ofQuotient d.negative d.digits (Nat.pow 10 (-d.exponent).toNat)

/-- The magnitude `digits / 10 ^ n` in steps: one quotient by a power up to `10 ^ 308`, or two.
Digits that fit a word are zero after two quotients by `10 ^ 308`. -/
def divided (digits n : Nat) : Double :=
  let x := Double.ofInt digits
  if n ≤ 308 then x / power n
  else if n ≤ 616 then x / power 308 / power (n - 308)
  else 0

/-- The magnitude `digits * 10 ^ n` in one rounded product, unless it is too large. -/
def multiplied? (digits n : Nat) : Option Double :=
  if n ≤ 308 then
    let x := Double.ofInt digits * power n
    if x.isFinite then some x else none
  else if digits = 0 then some 0
  else none

/-- The double reached by rounding the digits, the power of ten and then their product or
quotient; it can differ from the nearest one in the last place. The digits fit a word. -/
def stepwise? (d : Decimal) : Option Double :=
  let magnitude? :=
    if 0 ≤ d.exponent then multiplied? d.digits d.exponent.toNat
    else some (divided d.digits (-d.exponent).toNat)
  magnitude?.map (fun x => if d.negative then -x else x)

end Decimal

end ShapeFlow
