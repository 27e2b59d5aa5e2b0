import ShapeFlow.Number.Decimal

/-!
# Shortest decimals

The decimal with the fewest digits that reads back as a given number. All reals between the two
midpoints to a number's neighbours round to it; on the grid of multiples of `10 ^ p` only the
number's two neighbours can lie there first, so the grids are tried from the coarsest on.

* `Shortest.readsBack`: whether a decimal rounds to the number.
* `Shortest.decimal`: the shortest decimal, without trailing zeros.
-/

namespace ShapeFlow.Shortest

/-- Which of two equally near decimals is taken. -/
inductive Tie where
  | up
  | even
deriving DecidableEq, Repr

/-- Whether `digits * 10 ^ p` lies between the midpoints around a rank. The midpoints themselves
round to the even rank. -/
def readsBack (rank digits : Nat) (p : Int) : Bool :=
  let value := (digits * Nat.pow 10 p.toNat) <<< 1075
  let scale := Nat.pow 10 (-p).toNat
  let low := (Double.unitsOfRank (rank - 1) + Double.unitsOfRank rank) * scale
  let high := (Double.unitsOfRank rank + Double.unitsOfRank (rank + 1)) * scale
  if rank % 2 = 0 then low ≤ value && value ≤ high else low < value && value < high

/-- The magnitude of a rank as a quotient of `10 ^ p`. -/
def onGrid (rank : Nat) (p : Int) : Nat × Nat :=
  (Double.unitsOfRank rank * Nat.pow 10 (-p).toNat, Nat.pow 10 p.toNat <<< 1074)

/-- The nearer of the two neighbours on the grid of `10 ^ p` that read back. -/
def neighbour? (tie : Tie) (rank : Nat) (p : Int) : Option Nat :=
  let (num, den) := onGrid rank p
  let below := num / den
  let rest := 2 * (num % den)
  let nearer :=
    if rest < den then below
    else if den < rest then below + 1
    else match tie with
      | .up => below + 1
      | .even => below + below % 2
  match readsBack rank below p, readsBack rank (below + 1) p with
  | true, true => some nearer
  | true, false => some below
  | false, true => some (below + 1)
  | false, false => none

/-- The exponent of the leading digit of a magnitude below one: the first power of ten that brings
it to one or more. -/
def leadingBelowOne (units : Nat) : Nat → Nat → Int
  | 0, places => -places
  | fuel + 1, places =>
    if Double.unitsOfOne ≤ units * Nat.pow 10 places then -places
    else leadingBelowOne units fuel (places + 1)

/-- The exponent of the leading digit of a magnitude other than zero. -/
def leading (rank : Nat) : Int :=
  let units := Double.unitsOfRank rank
  if Double.unitsOfOne ≤ units then (Decimal.width (units / Double.unitsOfOne) : Int) - 1
  else leadingBelowOne units 324 1

/-- The first grid with a neighbour that reads back, from the grid of `10 ^ p` on. Seventeen digits
tell any two doubles apart, so the search ends before its fuel does. -/
def search (tie : Tie) (rank : Nat) : Nat → Int → Nat × Int
  | 0, p => let (num, den) := onGrid rank p; (num / den, p)
  | fuel + 1, p =>
    match neighbour? tie rank p with
    | some digits => (digits, p)
    | none => search tie rank fuel (p - 1)

/-- Moves trailing zeros into the exponent. -/
def strip : Nat → Nat → Int → Nat × Int
  | 0, digits, p => (digits, p)
  | fuel + 1, digits, p =>
    if digits % 10 = 0 then strip fuel (digits / 10) (p + 1) else (digits, p)

/-- The decimal with the fewest digits that reads back as a finite number. -/
def decimal (tie : Tie) (x : Double) : Decimal :=
  if x.isZero then ⟨x.negative, 0, 0⟩
  else
    let found := search tie x.rank 17 (leading x.rank)
    let stripped := strip 17 found.1 found.2
    ⟨x.negative, stripped.1, stripped.2⟩

end ShapeFlow.Shortest
