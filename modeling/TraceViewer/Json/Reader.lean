import TraceViewer.Json.Value
import TraceViewer.Number.Reading

/-!
Reading JSON text. Nesting is limited to 127 levels. A floating-point literal is read by scaling a
64-bit significand with powers of ten, each step rounded, so its last digit may differ from that
of the nearest number.
-/

namespace TraceViewer

namespace Json

/-- What remains to be read after a value. -/
abbrev Scan (α : Type) := Option (α × List Char)

/-- The blanks of JSON. -/
def isSpace (c : Char) : Bool := c == ' ' || c == '\n' || c == '\t' || c == '\r'

def skipSpace (cs : List Char) : List Char := cs.dropWhile isSpace

/-! ## Strings -/

/-- The number that four hexadecimal digits write. -/
def hex4? : List Char → Option Nat
  | [a, b, c, d] => do
    let a ← Text.hexDigit? a
    let b ← Text.hexDigit? b
    let c ← Text.hexDigit? c
    let d ← Text.hexDigit? d
    return ((a * 16 + b) * 16 + c) * 16 + d
  | _ => none

def isHighSurrogate (n : Nat) : Bool := 0xd800 ≤ n && n ≤ 0xdbff

def isLowSurrogate (n : Nat) : Bool := 0xdc00 ≤ n && n ≤ 0xdfff

/-- The character of a letter escape. -/
def letterEscape? (c : Char) : Option Char :=
  if c == '"' || c == '\\' || c == '/' then some c
  else if c == 'b' then some '\x08'
  else if c == 'f' then some '\x0c'
  else if c == 'n' then some '\n'
  else if c == 'r' then some '\r'
  else if c == 't' then some '\t'
  else none

/-- The rest of a string after its opening quote. Surrogates count only in pairs, and control
characters must be escaped. -/
def scanString (acc : List Char) : List Char → Scan String
  | [] => none
  | '"' :: rest => some (.ofList acc.reverse, rest)
  | '\\' :: 'u' :: a :: b :: c :: d :: rest =>
    match hex4? [a, b, c, d] with
    | none => none
    | some n =>
      if isHighSurrogate n then
        match rest with
        | '\\' :: 'u' :: e :: f :: g :: h :: rest =>
          match hex4? [e, f, g, h] with
          | some m =>
            if isLowSurrogate m then
              scanString (Char.ofNat (0x10000 + (n - 0xd800) * 0x400 + (m - 0xdc00)) :: acc) rest
            else none
          | none => none
        | _ => none
      else if isLowSurrogate n then none
      else scanString (Char.ofNat n :: acc) rest
  | '\\' :: c :: rest =>
    match letterEscape? c with
    | some e => scanString (e :: acc) rest
    | none => none
  | c :: rest => if c == '\\' || c.toNat < 0x20 then none else scanString (c :: acc) rest

/-! ## Numbers -/

/-- The largest significand that is kept exactly. -/
def maxSignificand : Nat := 0xffffffffffffffff

/-- Digits added to a significand up to the first that would not fit: the significand, how many
digits were taken, and what follows them. -/
def takeDigits (significand count : Nat) : List Char → Nat × Nat × List Char
  | [] => (significand, count, [])
  | c :: rest =>
    if Number.isDigit c && significand * 10 + Number.digitValue c ≤ maxSignificand then
      takeDigits (significand * 10 + Number.digitValue c) (count + 1) rest
    else (significand, count, c :: rest)

/-- A power of ten as a floating-point number. -/
def powerOfTen (n : Nat) : Float := Number.ofFraction (Number.powerOf 10 n) 1

/-- Divides by ten to the power `n`, in steps of at most 308. -/
def scaleDown (x : Float) (n : Nat) : Float :=
  if n ≤ 308 then x / powerOfTen n
  else if x == 0 then x
  else scaleDown (x / powerOfTen 308) (n - 308)
termination_by n

/-- A significand times a power of ten, rounded at each step. What is too large is no number. -/
def scaled? (significand : Nat) (exponent : Int) : Option Float :=
  let x := Number.ofNat significand
  -- what is too small becomes zero, what is too large fails
  if exponent < 0 then some (scaleDown x exponent.natAbs)
  else if exponent ≤ 308 then
    let y := x * powerOfTen exponent.natAbs
    if Number.isFinite y then some y else none
  else if significand = 0 then some x
  else none

/-- The largest exponent that is read as written. -/
def maxExponent : Nat := 0x7fffffff

/-- The exponent of a number after its "e", with what follows it. An exponent too large for 32 bits
makes any number but zero too large, or zero. -/
def scanExponent (negative : Bool) (significand : Nat) (start : Int) (cs : List Char) :
    Scan JsonNumber :=
  let (down, cs) :=
    match cs with
    | '+' :: rest => (false, rest)
    | '-' :: rest => (true, rest)
    | rest => (false, rest)
  let digits := cs.takeWhile Number.isDigit
  let rest := cs.dropWhile Number.isDigit
  if digits.isEmpty then none
  else
    let written := Number.digitsValue 0 digits
    if maxExponent < written then
      if significand ≠ 0 && !down then none
      else some (.float (Number.withSign negative 0), rest)
    else
      let exponent : Int := if down then start - written else start + written
      -- exponents saturate at 32 bits
      let exponent : Int := max (-(maxExponent : Int) - 1) (min (maxExponent : Int) exponent)
      (scaled? significand exponent).map fun x => (.float (Number.withSign negative x), rest)

/-- What may end a number with a point: an exponent or nothing. -/
def scanFloatEnd (negative : Bool) (significand : Nat) (exponent : Int) :
    List Char → Scan JsonNumber
  | 'e' :: rest => scanExponent negative significand exponent rest
  | 'E' :: rest => scanExponent negative significand exponent rest
  | rest => (scaled? significand exponent).map fun x => (.float (Number.withSign negative x), rest)

/-- The places after a point. Places that no longer fit the significand are dropped. -/
def scanPlaces (negative : Bool) (significand : Nat) (exponent : Int) (cs : List Char) :
    Scan JsonNumber :=
  match cs with
  | [] => none
  | c :: _ =>
    if !Number.isDigit c then none
    else
      let (significand, count, rest) := takeDigits significand 0 cs
      scanFloatEnd negative significand (exponent - count) (rest.dropWhile Number.isDigit)

/-- A number after its sign: a whole number, or a floating-point one when there is a point, an
exponent, or more than 64 bits. -/
def scanNumber (negative : Bool) (cs : List Char) : Scan JsonNumber :=
  match cs with
  | [] => none
  | c :: tail =>
    if !Number.isDigit c then none
    -- no leading zeros
    else if c == '0' && (tail.head?.any Number.isDigit) then none
    else
      let (significand, _, rest) := takeDigits 0 0 cs
      let dropped := rest.takeWhile Number.isDigit
      let rest := rest.dropWhile Number.isDigit
      match rest with
      | '.' :: places => scanPlaces negative significand dropped.length places
      | rest =>
        let isInteger :=
          dropped.isEmpty && !(rest.head? == some 'e' || rest.head? == some 'E') &&
            -- minus zero and what is below the least integer of 64 bits are floating-point
            (!negative || (0 < significand && significand ≤ 0x8000000000000000))
        if isInteger then
          some (.whole (if negative then -(significand : Int) else significand), rest)
        else scanFloatEnd negative significand dropped.length rest

/-! ## Values -/

/-- The fields or items of a container after its opening bracket: separated by commas, up to the
closing bracket. The bound is on their number. -/
def scanItems (item : List Char → Scan α) (close : Char) :
    Nat → List α → List Char → Scan (List α)
  | 0, _, _ => none
  | bound + 1, acc, cs =>
    match item (skipSpace cs) with
    | none => none
    | some (v, rest) =>
      match skipSpace rest with
      | c :: rest =>
        if c == close then some ((v :: acc).reverse, rest)
        else if c == ',' then scanItems item close bound (v :: acc) rest
        else none
      | [] => none

/-- A container after its opening bracket. -/
def scanContainer (item : List Char → Scan α) (close : Char) (cs : List Char) : Scan (List α) :=
  match skipSpace cs with
  | c :: rest =>
    if c == close then some ([], rest) else scanItems item close cs.length [] (c :: rest)
  | [] => none

/-- A field: a string, a colon and a value. -/
def scanField (value : List Char → Scan Json) : List Char → Scan (String × Json)
  | '"' :: rest =>
    match scanString [] rest with
    | none => none
    | some (key, rest) =>
      match skipSpace rest with
      | ':' :: rest => (value (skipSpace rest)).map fun (v, rest) => ((key, v), rest)
      | _ => none
  | _ => none

/-- A value, with at most `levels` containers inside one another. -/
def scanValue : Nat → List Char → Scan Json
  | _, 'n' :: 'u' :: 'l' :: 'l' :: rest => some (.null, rest)
  | _, 't' :: 'r' :: 'u' :: 'e' :: rest => some (.bool true, rest)
  | _, 'f' :: 'a' :: 'l' :: 's' :: 'e' :: rest => some (.bool false, rest)
  | _, '"' :: rest => (scanString [] rest).map fun (s, rest) => (.string s, rest)
  | levels + 1, '[' :: rest =>
    (scanContainer (scanValue levels) ']' rest).map fun (items, rest) => (.array items, rest)
  | levels + 1, '\x7b' :: rest =>
    (scanContainer (scanField (scanValue levels)) '\x7d' rest).map fun (fields, rest) =>
      (.object (Fields.ofList fields), rest)
  | _, '-' :: rest => (scanNumber true rest).map fun (n, rest) => (.number n, rest)
  | _, cs => (scanNumber false cs).map fun (n, rest) => (.number n, rest)

/-- How deep arrays and objects may nest. -/
def maxNesting : Nat := 127

/-- The document that a text holds, with nothing but blanks around it. -/
def read? (s : String) : Option Json :=
  match scanValue maxNesting (skipSpace s.toList) with
  | some (v, rest) => if (skipSpace rest).isEmpty then some v else none
  | none => none

end Json

end TraceViewer
