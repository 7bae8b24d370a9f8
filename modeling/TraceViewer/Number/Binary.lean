/-!
Floating-point numbers taken apart into a sign, a whole significand and a power of two, and put
together again from an exact fraction by rounding to the nearest number, ties to even.
-/

namespace TraceViewer.Number

/-- The power `base ^ exponent`; one when the exponent is below zero, so that a scaling by any power
is a multiplication by this and a division by that of the opposite exponent. -/
def powerOf (base : Nat) (exponent : Int) : Nat := Nat.pow base exponent.toNat

/-- The bit before the fraction of a significand, `2 ^ 52`. Only the least numbers lack it. -/
def leadingBit : Nat := 0x10000000000000

/-- The sign among the bits of a number, `2 ^ 63`. -/
def signBit : Nat := 0x8000000000000000

/-- The number `± significand · 2 ^ exponent`. -/
structure Binary where
  negative : Bool
  significand : Nat
  exponent : Int
  deriving Repr, DecidableEq

/-- The parts of a finite number; infinities and what is not a number have none. -/
def Binary.ofFloat? (x : Float) : Option Binary :=
  let bits := x.toBits.toNat
  let biased : Nat := bits / leadingBit % 2048
  let fraction : Nat := bits % leadingBit
  let negative := bits / signBit == 1
  if biased = 2047 then none
  else if biased = 0 then some ⟨negative, fraction, -1074⟩
  else some ⟨negative, fraction + leadingBit, (biased : Int) - 1075⟩

/-- The magnitude as an exact fraction: a numerator and a denominator that is a power of two. -/
def Binary.fraction (b : Binary) : Nat × Nat :=
  (b.significand * powerOf 2 b.exponent, powerOf 2 (-b.exponent))

def nan : Float := Float.ofBits 0x7ff8000000000000

def infinity : Float := Float.ofBits 0x7ff0000000000000

/-- Whether the sign bit is set; it is for negative zero. -/
def isNegative (x : Float) : Bool := x.toBits.toNat / signBit == 1

def isFinite (x : Float) : Bool := (Binary.ofFloat? x).isSome

def isNaN (x : Float) : Bool := !(x == x)

def withSign (negative : Bool) (x : Float) : Float := if negative then -x else x

/-- Divides, rounding to the nearest whole number and a half to the even one. -/
def divNearestEven (numerator denominator : Nat) : Nat :=
  let quotient := numerator / denominator
  let remainder := numerator % denominator
  if 2 * remainder < denominator then quotient
  else if 2 * remainder > denominator then quotient + 1
  else if quotient % 2 = 0 then quotient else quotient + 1

/-- The exponent of the unit in the last place of the number nearest to a fraction: the least one,
from -1074 on, for which the significand stays below `2 ^ 53`. -/
def unitExponent (numerator denominator : Nat) : Int :=
  let guess : Int := (Nat.log2 numerator : Int) - (Nat.log2 denominator : Int) - 52
  let exact : Int :=
    -- The guess is right or one too large.
    if numerator * powerOf 2 (-guess) < leadingBit * denominator * powerOf 2 guess then guess - 1
    else guess
  max exact (-1074)

/-- The floating-point number nearest to a fraction, ties to even; too large a fraction gives
infinity. -/
def ofFraction (numerator denominator : Nat) : Float :=
  if numerator = 0 then 0 else
  let exponent := unitExponent numerator denominator
  let significand :=
    divNearestEven (numerator * powerOf 2 (-exponent)) (denominator * powerOf 2 exponent)
  let bits :=
    if significand < leadingBit then significand
    else (exponent + 1075).toNat * leadingBit + (significand - leadingBit)
  if bits < 0x7ff0000000000000 then Float.ofBits (UInt64.ofNat bits) else infinity

/-- The floating-point number nearest to a whole number. -/
def ofInt (n : Int) : Float := withSign (n < 0) (ofFraction n.natAbs 1)

def ofNat (n : Nat) : Float := ofFraction n 1

end TraceViewer.Number
