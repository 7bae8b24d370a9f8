import TraceViewer.Json.Value
import TraceViewer.Number.Fixed

/-!
JSON as text, compact or indented. A floating-point number is written with the shortest digits
that read back, positionally from `1e-5` up to sixteen digits before the point, and otherwise with
an exponent.
-/

namespace TraceViewer

namespace Number

/-- A decimal with at least one place, in positional or in exponent form by its size. -/
def Decimal.jsonText (d : Decimal) : String :=
  let digits := Nat.toDigits 10 d.digits
  let count : Int := digits.length
  -- The number of digits before the point.
  let point := count + d.exponent
  if 0 ≤ d.exponent && point ≤ 16 then
    .ofList (digits ++ List.replicate d.exponent.toNat '0' ++ ['.', '0'])
  else if 0 < point && point ≤ 16 then
    .ofList (digits.take point.toNat ++ '.' :: digits.drop point.toNat)
  else if -5 < point && point ≤ 0 then
    .ofList ('0' :: '.' :: List.replicate point.natAbs '0' ++ digits)
  else
    let mantissa :=
      match digits with
      | [] => []
      | [d] => [d]
      | d :: more => d :: '.' :: more
    .ofList mantissa ++ "e" ++ (if 0 < point then "+" else "") ++ intText (point - 1)

/-- The text of a finite number in JSON, a tie between digits going to the even one. -/
def jsonText (x : Float) : String :=
  let magnitude :=
    match shortest? .toEven x with
    | some d => d.jsonText
    | none => "0.0"
  if isNegative x then "-" ++ magnitude else magnitude

end Number

def JsonNumber.text : JsonNumber → String
  | .whole n => Number.intText n
  | .float x => if Number.isFinite x then Number.jsonText x else "null"

namespace Json

/-- One character inside a JSON string. -/
def escape (c : Char) : List Char :=
  if c == '"' then ['\\', '"']
  else if c == '\\' then ['\\', '\\']
  else if c == '\x08' then ['\\', 'b']
  else if c == '\t' then ['\\', 't']
  else if c == '\n' then ['\\', 'n']
  else if c == '\x0c' then ['\\', 'f']
  else if c == '\r' then ['\\', 'r']
  else if c.toNat < 0x20 then
    ['\\', 'u', '0', '0', Nat.digitChar (c.toNat / 16), Nat.digitChar (c.toNat % 16)]
  else [c]

/-- A text as a JSON string. -/
def quote (s : String) : String := .ofList ('"' :: s.toList.flatMap escape ++ ['"'])

mutual

/-- A document without any space. -/
def compact : Json → String
  | .null => "null"
  | .bool true => "true"
  | .bool false => "false"
  | .number n => n.text
  | .string s => quote s
  | .array items => "[" ++ compactItems true items ++ "]"
  | .object fields => "\x7b" ++ compactFields true fields ++ "\x7d"

/-- Items with a comma before each but the first. -/
def compactItems (isFirst : Bool) : List Json → String
  | [] => ""
  | v :: rest => (if isFirst then "" else ",") ++ compact v ++ compactItems false rest

def compactFields (isFirst : Bool) : List (String × Json) → String
  | [] => ""
  | (k, v) :: rest =>
    (if isFirst then "" else ",") ++ quote k ++ ":" ++ compact v ++ compactFields false rest

end

/-- A line break and an indentation of `depth` levels. -/
def newline (depth : Nat) : String := .ofList ('\n' :: List.replicate (2 * depth) ' ')

mutual

/-- A document with each item and each field on a line of its own, indented by two spaces a level;
empty arrays and objects stay closed up. -/
def prettyAt (depth : Nat) : Json → String
  | .array [] => "[]"
  | .array (v :: rest) =>
    "[" ++ newline (depth + 1) ++ prettyAt (depth + 1) v ++ prettyItems (depth + 1) rest ++
      newline depth ++ "]"
  | .object [] => "\x7b\x7d"
  | .object ((k, v) :: rest) =>
    "\x7b" ++ newline (depth + 1) ++ quote k ++ ": " ++ prettyAt (depth + 1) v ++
      prettyFields (depth + 1) rest ++ newline depth ++ "\x7d"
  | .null => "null"
  | .bool true => "true"
  | .bool false => "false"
  | .number n => n.text
  | .string s => quote s

def prettyItems (depth : Nat) : List Json → String
  | [] => ""
  | v :: rest => "," ++ newline depth ++ prettyAt depth v ++ prettyItems depth rest

def prettyFields (depth : Nat) : List (String × Json) → String
  | [] => ""
  | (k, v) :: rest =>
    "," ++ newline depth ++ quote k ++ ": " ++ prettyAt depth v ++ prettyFields depth rest

end

/-- A document with indentation. -/
def pretty (v : Json) : String := prettyAt 0 v

end Json

end TraceViewer
