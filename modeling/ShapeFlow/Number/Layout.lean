import ShapeFlow.Number.Shortest

/-!
# Layouts of numbers

A layout says how a number is written once its shortest decimal is known: where positional
notation ends, whether a whole number keeps a fraction, and what infinity and a value that is not a
number are called.

* `Layout.plain`: the layout of messages, always positional.
-/

namespace ShapeFlow

/-- How numbers are written. -/
structure Layout where
  /-- Which of two equally near shortest decimals is taken. -/
  tie : Shortest.Tie
  /-- The exponents of a leading digit that are written positionally, first and last; `none` for
  all of them. -/
  positional : Option (Int × Int)
  /-- What follows a whole number in positional notation. -/
  wholeMark : String
  /-- The text of infinity with a sign. -/
  infinite : Bool → String
  /-- The text of what is not a number. -/
  notNumber : String

namespace Layout

/-- Messages write whole numbers without a fraction and never use an exponent. -/
def plain : Layout where
  tie := .up
  positional := none
  wholeMark := ""
  infinite := fun negative => if negative then "-inf" else "inf"
  notNumber := "NaN"

/-- The digits of a decimal without an exponent part. -/
def positionalText (wholeMark : String) (digits : String) (exponent : Int) : String :=
  if 0 ≤ exponent then digits ++ "".pushn '0' exponent.toNat ++ wholeMark
  else
    let places := (-exponent).toNat
    let padded := "".pushn '0' (places + 1 - digits.length) ++ digits
    let cut := padded.length - places
    String.ofList (padded.toList.take cut) ++ "." ++ String.ofList (padded.toList.drop cut)

/-- The digits of a decimal with a point after the first and a signed exponent part. -/
def exponentText (digits : String) (leading : Int) : String :=
  let rest := digits.toList.drop 1
  String.ofList (digits.toList.take 1)
    ++ (if rest.isEmpty then "" else "." ++ String.ofList rest)
    ++ (if leading < 0 then "e-" else "e+") ++ toString leading.natAbs

/-- A decimal written in the layout. -/
def decimalText (layout : Layout) (d : Decimal) : String :=
  let digits := toString d.digits
  let leading := d.exponent + digits.length - 1
  let inside : Bool := match layout.positional with
    | none => true
    | some (first, last) => first ≤ leading && leading ≤ last
  (if d.negative then "-" else "") ++
    if d.digits == 0 || inside then positionalText layout.wholeMark digits d.exponent
    else exponentText digits leading

/-- A value written in the layout. -/
def write (layout : Layout) (x : Double) : String :=
  if x.isFinite then layout.decimalText (Shortest.decimal layout.tie x)
  else if x.isNaN then layout.notNumber
  else layout.infinite x.negative

end Layout

end ShapeFlow
