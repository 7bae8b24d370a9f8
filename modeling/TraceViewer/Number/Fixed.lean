import TraceViewer.Number.Shortest

/-!
Numbers as text: positional with the shortest digits, and with a fixed number of places. Neither
form ever has an exponent.
-/

namespace TraceViewer.Number

def natText (n : Nat) : String := .ofList (Nat.toDigits 10 n)

def intText (n : Int) : String := if n < 0 then "-" ++ natText n.natAbs else natText n.natAbs

/-- A whole number of units of `10 ^ -places`, with a point before the last `places` digits. -/
def placed (units places : Nat) : String :=
  let digits := Nat.toDigits 10 units
  let padded := List.replicate (places + 1 - digits.length) '0' ++ digits
  if places = 0 then .ofList padded
  else .ofList (padded.take (padded.length - places) ++ '.' :: padded.drop (padded.length - places))

/-- A decimal written with a point and no exponent. -/
def Decimal.positional (d : Decimal) : String :=
  if 0 ≤ d.exponent then natText (d.digits * powerOf 10 d.exponent)
  else placed d.digits d.exponent.natAbs

/-- The plain text of a number: the shortest digits that read back, a tie going up, with neither
point nor zeros after a whole number. -/
def plainText (x : Float) : String :=
  if isNaN x then "NaN"
  else
    let magnitude :=
      if isFinite x then
        match shortest? .up x with
        | some d => d.positional
        | none => "0"
      else "inf"
    if isNegative x then "-" ++ magnitude else magnitude

/-- The text of a number with `places` places: its exact value rounded to them, a half to the even
neighbour. A negative number keeps its sign even where it rounds to zero. -/
def fixedText (places : Nat) (x : Float) : String :=
  if isNaN x then "NaN"
  else
    let magnitude :=
      match Binary.ofFloat? x with
      | some b => placed (divNearestEven (b.fraction.1 * powerOf 10 places) b.fraction.2) places
      | none => "inf"
    if isNegative x then "-" ++ magnitude else magnitude

end TraceViewer.Number
