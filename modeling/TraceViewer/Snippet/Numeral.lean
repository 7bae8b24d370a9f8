import TraceViewer.Number.Fixed
import TraceViewer.Number.Reading
import TraceViewer.Number.Whole
import TraceViewer.Text.Search

/-!
Numbers and texts of the snippet language: how a number shows, and which number a text is.
-/

namespace TraceViewer.Snippet

open TraceViewer.Text

/-- A whole number of this size, `10 ^ 21`, or more shows as the shortest decimal, a smaller one
exactly. -/
def exactBelow : Nat := 1000000000000000000000

/-- The text of a number. Both zeros show as "0". -/
def numberText (x : Float) : String :=
  if Number.isNaN x then "NaN"
  else if !Number.isFinite x then if Number.isNegative x then "-Infinity" else "Infinity"
  else if Number.isWhole x && Number.wholePart x < exactBelow then Number.intText (Number.toInt x)
  else Number.plainText x

/-- The greatest number that hexadecimal digits may write; a negative one may be one larger. -/
def maxHex : Nat := 0x7fffffffffffffff

/-- A hexadecimal number, which must fit 63 bits; it may have a sign. -/
def hexNumber (digits : List Char) : Float :=
  let (negative, digits) :=
    match digits with
    | '-' :: rest => (true, rest)
    | '+' :: rest => (false, rest)
    | rest => (false, rest)
  let n := hexValue (.ofList digits)
  if digits.isEmpty || !digits.all (fun c => (hexDigit? c).isSome) then Number.nan
  else if (if negative then maxHex + 1 else maxHex) < n then Number.nan
  else Number.ofInt (if negative then -(n : Int) else n)

/-- The number that a text is: zero without any character but blanks, else a decimal or
hexadecimal literal or an infinity between blanks. -/
def textNumber (s : String) : Float :=
  match (trim s).toList with
  | [] => 0
  | '0' :: 'x' :: digits => hexNumber digits
  | '0' :: 'X' :: digits => hexNumber digits
  | cs =>
    if cs == "Infinity".toList || cs == "+Infinity".toList then Number.infinity
    else if cs == "-Infinity".toList then -Number.infinity
    else (Number.decimal? cs).getD Number.nan

/-- A sign at the start of a text: whether it is negative, and what follows it. -/
def signOf : List Char → Bool × List Char
  | '-' :: rest => (true, rest)
  | '+' :: rest => (false, rest)
  | rest => (false, rest)

/-- The base of an integer's digits and the digits. Without a base, or with base sixteen, "0x"
before the digits is allowed and makes the base sixteen; otherwise it is ten. -/
def integerBase (base : Nat) (cs : List Char) : Nat × List Char :=
  let fallback := if base = 0 then 10 else base
  if base = 0 || base = 16 then
    match cs with
    | '0' :: 'x' :: rest => (16, rest)
    | '0' :: 'X' :: rest => (16, rest)
    | _ => (fallback, cs)
  else (fallback, cs)

/-- The integer at the start of a text after blanks and a sign: as many digits as belong to the
base. Base zero stands for none. Each digit is added in floating-point arithmetic. -/
def leadingInteger (s : String) (base : Nat) : Float :=
  let (negative, cs) := signOf (dropBlanks s.toList)
  let (base, cs) := integerBase base cs
  if base < 2 || 36 < base then Number.nan
  else
    let digits := (cs.takeWhile fun c => (Number.baseDigit? base c).isSome).filterMap
      (Number.baseDigit? base)
    if digits.isEmpty then Number.nan
    else
      -- many digits lose precision one rounding at a time, as the sum grows
      let value := digits.foldl (fun x d => x * Number.ofNat base + Number.ofNat d) 0
      Number.withSign negative value

/-- The exponent at the start of a text, if it has digits; otherwise nothing. -/
def leadingExponent : List Char → List Char
  | e :: rest =>
    let (sign, digits) :=
      match rest with
      | '+' :: digits => (['+'], digits)
      | '-' :: digits => (['-'], digits)
      | digits => ([], digits)
    let taken := digits.takeWhile Number.isDigit
    if (e == 'e' || e == 'E') && !taken.isEmpty then e :: sign ++ taken else []
  | [] => []

/-- The longest decimal literal at the start of a text without a sign. -/
def leadingDecimal (cs : List Char) : List Char :=
  let whole := cs.takeWhile Number.isDigit
  let (places, rest) :=
    match cs.dropWhile Number.isDigit with
    | '.' :: rest =>
      let places := rest.takeWhile Number.isDigit
      if whole.isEmpty && places.isEmpty then ([], '.' :: rest)
      else ('.' :: places, rest.dropWhile Number.isDigit)
    | rest => ([], rest)
  if whole.isEmpty && places.isEmpty then [] else whole ++ places ++ leadingExponent rest

/-- The number at the start of a text after blanks: a sign or none, then an infinity or as long a
decimal literal as stands there. -/
def leadingNumber (s : String) : Float :=
  let (negative, cs) := signOf (dropBlanks s.toList)
  if (stripStart? "Infinity".toList cs).isSome then Number.withSign negative Number.infinity
  else
    match leadingDecimal cs with
    | [] => Number.nan
    | literal => Number.withSign negative ((Number.decimal? literal).getD Number.nan)

end TraceViewer.Snippet
