import TraceViewer.Number.Binary

/-!
The fewest decimal digits that read back as a given number. A decimal reads back when it lies
among the reals that round to the number; of the decimals with the fewest digits the nearest is
taken, and an exact tie between two is settled by the caller.
-/

namespace TraceViewer.Number

/-- The positive decimal `digits · 10 ^ exponent`. -/
structure Decimal where
  digits : Nat
  exponent : Int
  deriving Repr, DecidableEq

/-- What to do when two decimals are equally near. -/
inductive Tie where
  | toEven
  | up
  deriving Repr, DecidableEq

/-- The reals that round to a positive number, as multiples of one fraction `1 / scale`: the value
itself, the ends of the interval, and whether the ends belong to it. -/
structure Neighbourhood where
  value : Nat
  low : Nat
  high : Nat
  scale : Nat
  closed : Bool

/-- The neighbourhood of a number that is not zero. The interval reaches half a unit in the last
place to both sides, but only a quarter below a power of two, where the units get smaller. -/
def Binary.neighbourhood (b : Binary) : Neighbourhood :=
  -- in quarters of a unit
  let below := if b.significand = leadingBit ∧ -1074 < b.exponent then 1 else 2
  let factor := powerOf 2 b.exponent
  { value := 4 * b.significand * factor
    low := (4 * b.significand - below) * factor
    high := (4 * b.significand + 2) * factor
    scale := 4 * powerOf 2 (-b.exponent)
    closed := b.significand % 2 == 0 }

/-- Whether the decimal `digits · 10 ^ exponent` lies in the interval. -/
def Neighbourhood.admits (n : Neighbourhood) (d : Decimal) : Bool :=
  let point := d.digits * n.scale * powerOf 10 d.exponent
  let grow := powerOf 10 (-d.exponent)
  if n.closed then n.low * grow ≤ point && point ≤ n.high * grow
  else n.low * grow < point && point < n.high * grow

/-- The two neighbours of the value on the grid of the multiples of `10 ^ exponent`, the lower one
with the remainder and the divisor that tell how near it is. -/
def Neighbourhood.onGrid (n : Neighbourhood) (exponent : Int) : Nat × Nat × Nat :=
  let numerator := n.value * powerOf 10 (-exponent)
  let denominator := n.scale * powerOf 10 exponent
  (numerator / denominator, numerator % denominator, denominator)

/-- The admitted decimal on one grid that is nearest to the value. -/
def Neighbourhood.nearest? (tie : Tie) (n : Neighbourhood) (exponent : Int) : Option Decimal :=
  let (lower, remainder, divisor) := n.onGrid exponent
  let down : Decimal := ⟨lower, exponent⟩
  let up : Decimal := ⟨lower + 1, exponent⟩
  let downIsIn := lower ≠ 0 && n.admits down
  let upIsIn := n.admits up
  if downIsIn && upIsIn then
    if 2 * remainder < divisor then some down
    else if 2 * remainder > divisor then some up
    else
      match tie with
      | .toEven => if lower % 2 = 0 then some down else some up
      | .up => some up
  else if downIsIn then some down
  else if upIsIn then some up
  else none

/-- The exponent `k` with `10 ^ (k - 1) ≤ value < 10 ^ k`, searched for upwards. -/
def Neighbourhood.pointFrom (n : Neighbourhood) : Nat → Int → Int
  | 0, k => k
  | fuel + 1, k =>
    if n.value * powerOf 10 (-k) < n.scale * powerOf 10 k then k else n.pointFrom fuel (k + 1)

/-- A lower bound of the decimal exponent, from the binary one. -/
def Neighbourhood.pointGuess (n : Neighbourhood) : Int :=
  ((Nat.log2 n.value : Int) - (Nat.log2 n.scale : Int) - 1) * 30103 / 100000 - 1

/-- The first of the grids, from the coarsest on, that holds an admitted decimal. -/
def Neighbourhood.firstGrid (tie : Tie) (n : Neighbourhood) (point : Int) :
    Nat → Nat → Option Decimal
  | 0, _ => none
  | fuel + 1, count =>
    match n.nearest? tie (point - count) with
    | some d => some d
    | none => n.firstGrid tie point fuel (count + 1)

/-- A decimal without the zeros at its end. -/
def Decimal.trimmed (d : Decimal) : Nat → Decimal
  | 0 => d
  | fuel + 1 =>
    if d.digits ≠ 0 ∧ d.digits % 10 = 0 then
      (⟨d.digits / 10, d.exponent + 1⟩ : Decimal).trimmed fuel
    else d

/-- The shortest decimal that reads back as the magnitude of `x`; none for zero and for what is
not finite. Seventeen digits always suffice. -/
def shortest? (tie : Tie) (x : Float) : Option Decimal :=
  match Binary.ofFloat? x with
  | none => none
  | some b =>
    if b.significand = 0 then none
    else
      let n := b.neighbourhood
      -- the guess is too low by a few at most
      let point := n.pointFrom 8 n.pointGuess
      (n.firstGrid tie point 17 1).map (·.trimmed 17)

end TraceViewer.Number
