import TraceViewer.Json.Printer
import TraceViewer.Json.Skip
import TraceViewer.Text.Search

/-!
The records of saved parsers and their file: an indented JSON array of objects whose members stand
in a fixed order. Reading is freer than writing: members may stand in any order and others may
stand between them, and an array may stand for a record.
-/

namespace TraceViewer

/-- A saved parser. Its id fits 64 bits with a sign. -/
structure ParserRecord where
  id : Int
  name : String
  code : String
  created : String
  updated : String
  deriving Repr, DecidableEq

namespace ParserRecord

def members (p : ParserRecord) : List (String × Json) :=
  [("id", .ofInt p.id), ("name", .string p.name), ("code", .string p.code),
    ("created_at", .string p.created), ("updated_at", .string p.updated)]

/-- Records as the text of their file. -/
def fileText (records : List ParserRecord) : String :=
  (Json.array (records.map fun p => .object p.members)).pretty

/-! ## Reading -/

/-- An id in a document. -/
def id? : Json → Option Int
  | .number (.whole n) => if -0x8000000000000000 ≤ n && n ≤ 0x7fffffffffffffff then some n else none
  | _ => none

/-- The names of the members that a record needs. -/
def memberNames : List String := ["id", "name", "code", "created_at", "updated_at"]

/-- The value of a member that a record needs; one that it does not need is passed over. -/
def scanMember : List Char → Option (Option (String × Json) × List Char)
  | '"' :: rest => do
    let (key, rest) ← Json.scanString [] rest
    match Json.skipSpace rest with
    | ':' :: rest =>
      let rest := Json.skipSpace rest
      if memberNames.contains key then
        let (value, rest) ← Json.scanValue Json.maxNesting rest
        return (some (key, value), rest)
      else
        let (_, rest) ← Json.skip rest
        return (none, rest)
    | _ => none
  | _ => none

/-- The value of a member that stands there exactly once. -/
def only? (key : String) (members : List (String × Json)) : Option Json :=
  match members.filter fun m => m.1 == key with
  | [m] => some m.2
  | _ => none

/-- The record with some members. -/
def ofMembers? (members : List (String × Json)) : Option ParserRecord := do
  let id ← (only? "id" members).bind id?
  let name ← (only? "name" members).bind Json.string?
  let code ← (only? "code" members).bind Json.string?
  let created ← (only? "created_at" members).bind Json.string?
  let updated ← (only? "updated_at" members).bind Json.string?
  return ⟨id, name, code, created, updated⟩

/-- The record that an array stands for. -/
def ofItems? : List Json → Option ParserRecord
  | [id, .string name, .string code, .string created, .string updated] =>
    (id? id).map fun id => ⟨id, name, code, created, updated⟩
  | _ => none

/-- A record, as an object or as an array. -/
def scan : List Char → Option (ParserRecord × List Char)
  | '\x7b' :: rest => do
    let (members, rest) ← Json.scanContainer scanMember '\x7d' rest
    return (← ofMembers? (members.filterMap fun m => m), rest)
  | '[' :: rest => do
    let (items, rest) ← Json.scanContainer (Json.scanValue Json.maxNesting) ']' rest
    return (← ofItems? items, rest)
  | _ => none

/-- The records in a file; a blank file has none. -/
def ofFile? (text : String) : Option (List ParserRecord) :=
  if (Text.trim text).isEmpty then some []
  else
    match Json.skipSpace text.toList with
    | '[' :: rest => do
      let (records, rest) ← Json.scanContainer scan ']' rest
      if (Json.skipSpace rest).isEmpty then some records else none
    | _ => none

end ParserRecord

end TraceViewer
