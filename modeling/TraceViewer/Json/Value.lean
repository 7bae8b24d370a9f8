import TraceViewer.Fields
import TraceViewer.Number.Whole

/-!
JSON documents. An object is a list of fields. Objects that are read have them in the order of their
keys, each key once, the last of those that share a key; those that are written may be in any order.
-/

namespace TraceViewer

/-- A JSON number: a whole number that fits 64 bits, with a sign or without, or a floating-point
number. -/
inductive JsonNumber where
  | whole (n : Int)
  | float (x : Float)

inductive Json where
  | null
  | bool (b : Bool)
  | number (n : JsonNumber)
  | string (s : String)
  | array (items : List Json)
  | object (fields : List (String × Json))

namespace Json

instance : Inhabited Json := ⟨.null⟩

/-- The member of an object; nothing else has members. -/
def get? (key : String) : Json → Option Json
  | .object fields => fields.lookup key
  | _ => none

/-- The word for the kind of a value. -/
def kind : Json → String
  | .null => "null"
  | .bool _ => "a boolean"
  | .number _ => "a number"
  | .string _ => "a string"
  | .array _ => "an array"
  | .object _ => "an object"

def string? : Json → Option String
  | .string s => some s
  | _ => none

def array? : Json → Option (List Json)
  | .array items => some items
  | _ => none

def object? : Json → Option (Fields Json)
  | .object fields => some fields
  | _ => none

end Json

/-- The floating-point number nearest to a JSON number. -/
def JsonNumber.toFloat : JsonNumber → Float
  | .whole n => Number.ofInt n
  | .float x => x

/-- A whole number as a JSON value. -/
def Json.ofInt (n : Int) : Json := .number (.whole n)

end TraceViewer
