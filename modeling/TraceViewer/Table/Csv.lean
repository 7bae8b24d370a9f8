import TraceViewer.Text.Search

/-!
Tables as comma-separated values: a record a line, and quotes around the fields that need them.
-/

namespace TraceViewer.Csv

/-- Whether a field holds a character that means something between fields. -/
def isSpecial (c : Char) : Bool := c == ',' || c == '"' || c == '\n' || c == '\r'

/-- A field with each quote written twice. -/
def doubleQuotes (cs : List Char) : List Char :=
  cs.flatMap fun c => if c == '"' then ['"', '"'] else [c]

/-- A field, in quotes where it needs them. -/
def field (text : String) : String :=
  if text.any isSpecial then .ofList ('"' :: doubleQuotes text.toList ++ ['"']) else text

/-- A record with the line break that ends it. -/
def record (fields : List String) : String := Text.join "," (fields.map field) ++ "\n"

/-- Records one after another. -/
def text (records : List (List String)) : String := String.join (records.map record)

/-! ## File names -/

/-- The characters that stay in a file name. -/
def isFileChar (c : Char) : Bool := c.isAlphanum || c == '-' || c == '_' || c == '.'

/-- A file name, without its ending, made of a text. -/
def fileStem (hint : String) : String :=
  let cs := hint.toList
  let ending := ".json".toList
  let stem := if ending.isSuffixOf cs then cs.take (cs.length - ending.length) else cs
  let cleaned := stem.map fun c => if isFileChar c then c else '_'
  if cleaned.all fun c => c == '_' || c == '.' then "trace" else .ofList cleaned

end TraceViewer.Csv
