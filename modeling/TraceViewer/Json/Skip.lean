import TraceViewer.Json.Reader

/-!
Passing over a JSON value that is not wanted. Only its form counts then: it may nest to any depth,
its numbers may be of any size, and its escapes need not be characters.
-/

namespace TraceViewer.Json

/-- What follows a string, after its opening quote. -/
def skipString : List Char → Scan Unit
  | [] => none
  | '"' :: rest => some ((), rest)
  | '\\' :: 'u' :: a :: b :: c :: d :: rest =>
    if (hex4? [a, b, c, d]).isSome then skipString rest else none
  | '\\' :: c :: rest => if (letterEscape? c).isSome then skipString rest else none
  | c :: rest => if c == '\\' || c.toNat < 0x20 then none else skipString rest

/-- What follows at least one digit. -/
def skipDigits (cs : List Char) : Option (List Char) :=
  if cs.head?.any Number.isDigit then some (cs.dropWhile Number.isDigit) else none

/-- What follows the exponent of a number, after its "e". -/
def skipExponent : List Char → Option (List Char)
  | '+' :: rest => skipDigits rest
  | '-' :: rest => skipDigits rest
  | rest => skipDigits rest

/-- What follows the end of a number, after its whole part and its places. -/
def skipNumberEnd : List Char → Option (List Char)
  | 'e' :: rest => skipExponent rest
  | 'E' :: rest => skipExponent rest
  | rest => some rest

/-- What follows a number, after its sign. -/
def skipNumber (cs : List Char) : Option (Unit × List Char) := do
  let rest ←
    match cs with
    | '0' :: rest => if rest.head?.any Number.isDigit then none else some rest
    | cs => skipDigits cs
  let rest ←
    match rest with
    | '.' :: places => skipDigits places
    | rest => some rest
  return ((), ← skipNumberEnd rest)

/-- What follows a field, with a way to pass over its value. -/
def skipField (value : List Char → Scan Unit) : List Char → Option (Unit × List Char)
  | '"' :: rest => do
    let (_, rest) ← skipString rest
    match skipSpace rest with
    | ':' :: rest => value (skipSpace rest)
    | _ => none
  | _ => none

/-- What follows a value with at most `levels` containers inside one another. -/
def skipValue : Nat → List Char → Scan Unit
  | _, 'n' :: 'u' :: 'l' :: 'l' :: rest => some ((), rest)
  | _, 't' :: 'r' :: 'u' :: 'e' :: rest => some ((), rest)
  | _, 'f' :: 'a' :: 'l' :: 's' :: 'e' :: rest => some ((), rest)
  | _, '"' :: rest => skipString rest
  | levels + 1, '[' :: rest =>
    (scanContainer (skipValue levels) ']' rest).map fun found => ((), found.2)
  | levels + 1, '\x7b' :: rest =>
    (scanContainer (skipField (skipValue levels)) '\x7d' rest).map fun found => ((), found.2)
  | _, '-' :: rest => skipNumber rest
  | _, cs => skipNumber cs

/-- What follows a value of any depth: no text nests deeper than it is long. -/
def skip (cs : List Char) : Scan Unit := skipValue cs.length cs

end TraceViewer.Json
