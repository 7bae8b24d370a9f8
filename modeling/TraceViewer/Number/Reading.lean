import TraceViewer.Number.Whole
import TraceViewer.Text.CharSet

/-!
Numbers read from text: a decimal literal gives the floating-point number nearest to its exact
value.
-/

namespace TraceViewer.Number

def isDigit (c : Char) : Bool := '0' ≤ c && c ≤ '9'

def digitValue (c : Char) : Nat := c.toNat - 48

/-- The number that decimal digits write, after the digits of `acc`. -/
def digitsValue (acc : Nat) (digits : List Char) : Nat :=
  digits.foldl (fun n c => n * 10 + digitValue c) acc

/-- The value of a digit in bases up to thirty-six, where letters of either case follow nine. -/
def baseDigit? (base : Nat) (c : Char) : Option Nat :=
  let value? :=
    if isDigit c then some (c.toNat - 48)
    else if 'a' ≤ c ∧ c ≤ 'z' then some (c.toNat - 87)
    else if 'A' ≤ c ∧ c ≤ 'Z' then some (c.toNat - 55)
    else none
  value?.filter (· < base)

/-- The number nearest to `digits · 10 ^ exponent`. Exponents beyond the range of floating-point
numbers are settled without computing the power. -/
def ofDecimal (digits : Nat) (exponent : Int) : Float :=
  if digits = 0 then 0
  else
    let point := exponent + (Nat.log2 digits : Int) * 30103 / 100000
    if 320 < point then infinity
    else if point < -400 then 0
    else ofFraction (digits * powerOf 10 exponent) (powerOf 10 (-exponent))

/-- The exponent part of a decimal literal, to the end of the text: "e", a sign or none, and
digits. Nothing at all counts as exponent zero. -/
def exponentPart? : List Char → Option Int
  | [] => some 0
  | e :: rest =>
    if e == 'e' || e == 'E' then
      let (negative, digits) :=
        match rest with
        | '-' :: digits => (true, digits)
        | '+' :: digits => (false, digits)
        | digits => (false, digits)
      if digits.isEmpty || !digits.all isDigit then none
      else
        let n : Int := digitsValue 0 digits
        some (if negative then -n else n)
    else none

/-- A decimal literal without a sign: digits with a point or without, at least one of them, and
then an exponent or none. -/
def unsignedDecimal? (cs : List Char) : Option Float :=
  let whole := cs.takeWhile isDigit
  let afterWhole := cs.dropWhile isDigit
  let (places, afterPlaces) :=
    match afterWhole with
    | '.' :: rest => (rest.takeWhile isDigit, rest.dropWhile isDigit)
    | rest => ([], rest)
  if whole.isEmpty && places.isEmpty then none
  else
    (exponentPart? afterPlaces).map fun exponent =>
      ofDecimal (digitsValue (digitsValue 0 whole) places) (exponent - places.length)

/-- A decimal literal with a sign or none. -/
def decimal? : List Char → Option Float
  | '-' :: cs => (unsignedDecimal? cs).map fun x => -x
  | '+' :: cs => unsignedDecimal? cs
  | cs => unsignedDecimal? cs

/-- The size that a text of digits writes, with a plus sign before them or not; sizes fit 64
bits. -/
def size? (cs : List Char) : Option Nat :=
  let digits :=
    match cs with
    | '+' :: rest => rest
    | rest => rest
  if digits.isEmpty || !digits.all isDigit then none
  else
    let n := digitsValue 0 digits
    if n ≤ maxSize then some n else none

end TraceViewer.Number
