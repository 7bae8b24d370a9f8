import TraceViewer.Json.Printer

/-!
A JSON document as lines to read: a field or an item a line, and strings without escapes.
-/

namespace TraceViewer

namespace Json

/-- A value that is neither array nor object, on one line. -/
def leafText : Json → String
  | .string s => "\"" ++ s ++ "\""
  | v => v.compact

/-- Spaces before a line, and a comma after it where more follows. -/
def detailLine (indent : Nat) (text : String) (comma : Bool) : String :=
  .ofList (List.replicate indent ' ') ++ text ++ if comma then "," else ""

mutual

/-- The lines of a document. Brackets stand on lines of their own. -/
def detailLines (indent : Nat) (comma : Bool) : Json → List String
  | .object fields =>
    detailLine indent "\x7b" false :: fieldLines (indent + 2) fields ++
      [detailLine indent "\x7d" comma]
  | .array items =>
    detailLine indent "[" false :: itemLines (indent + 2) items ++ [detailLine indent "]" comma]
  | v => [detailLine indent v.leafText comma]

def itemLines (indent : Nat) : List Json → List String
  | [] => []
  | v :: rest => detailLines indent (!rest.isEmpty) v ++ itemLines indent rest

def fieldLines (indent : Nat) : List (String × Json) → List String
  | [] => []
  | (key, v) :: rest =>
    let name := "\"" ++ key ++ "\": "
    (match v with
      | .object fields =>
        detailLine indent name false :: detailLines indent (!rest.isEmpty) (.object fields)
      | .array items =>
        detailLine indent name false :: detailLines indent (!rest.isEmpty) (.array items)
      | v => [detailLine indent (name ++ v.leafText) (!rest.isEmpty)]) ++
      fieldLines indent rest

end

end Json

end TraceViewer
