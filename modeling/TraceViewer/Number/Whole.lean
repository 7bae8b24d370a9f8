import TraceViewer.Number.Binary

/-!
The whole part of a number, the roundings to whole numbers, and the remainder of a division.
-/

namespace TraceViewer.Number

/-- The magnitude of a finite number without its fractional part; zero for all others. -/
def wholePart (x : Float) : Nat :=
  match Binary.ofFloat? x with
  | none => 0
  | some b => let f := b.fraction; f.1 / f.2

/-- A finite number without its fractional part; zero for all others. -/
def toInt (x : Float) : Int := if isNegative x then -(wholePart x : Int) else wholePart x

/-- Whether a number is finite and has no fractional part. -/
def isWhole (x : Float) : Bool :=
  match Binary.ofFloat? x with
  | none => false
  | some b => let f := b.fraction; f.1 % f.2 == 0

/-- The largest whole number that is not above `x`. -/
def floor (x : Float) : Float :=
  if isWhole x || !isFinite x then x
  else if isNegative x then -ofNat (wholePart x + 1) else ofNat (wholePart x)

/-- The least whole number that is not below `x`; it keeps the sign of `x` when it is zero. -/
def ceil (x : Float) : Float :=
  if isWhole x || !isFinite x then x
  else if isNegative x then -ofNat (wholePart x) else ofNat (wholePart x + 1)

/-- The number cut to a natural number that is at most `bound`: what is negative or not a number
gives zero, and what is larger gives `bound`. -/
def toNatWithin (bound : Nat) (x : Float) : Nat :=
  if isNaN x || isNegative x then 0
  else if isFinite x then min (wholePart x) bound else bound

/-- The largest size of a list, which has 64 bits. -/
def maxSize : Nat := 0xffffffffffffffff

/-- The number as a size: see `toNatWithin`. -/
def toSize (x : Float) : Nat := toNatWithin maxSize x

/-- The remainder of the division of `x` by `y` truncated toward zero, which has the sign of `x`.
It is exact. -/
def remainder (x y : Float) : Float :=
  match Binary.ofFloat? x, Binary.ofFloat? y with
  | some a, some b =>
    if b.significand = 0 then nan
    else
      let base := min a.exponent b.exponent
      let p := a.significand * powerOf 2 (a.exponent - base)
      let q := b.significand * powerOf 2 (b.exponent - base)
      let r : Binary := ⟨a.negative, p % q, base⟩
      withSign a.negative (ofFraction r.fraction.1 r.fraction.2)
  | some _, none => if isNaN y then nan else x
  | none, _ => nan

end TraceViewer.Number
