import TraceViewer.Json.Printer

/-!
One record of a trace: fields that may differ from record to record, each shown as a text.
-/

namespace TraceViewer

/-- One record of a trace, its fields in the order of their names. -/
abbrev Event := Fields Json

/-- Floating-point numbers that are whole and below this size show without a point. -/
def plainBelow : Nat := 1000000000000000

/-- How a number shows in a cell. -/
def JsonNumber.cellText : JsonNumber → String
  | .whole n => Number.intText n
  | .float x =>
    if Number.isWhole x && Number.wholePart x < plainBelow then Number.intText (Number.toInt x)
    else (JsonNumber.float x).text

/-- How a value shows in a cell: null is empty, and a compound value is compact JSON. -/
def Json.cellText : Json → String
  | .null => ""
  | .string s => s
  | .bool b => if b then "true" else "false"
  | .number n => n.cellText
  | v => v.compact

namespace Event

/-- The text of a field; a missing field shows as nothing. -/
def cell (e : Event) (column : String) : String :=
  match Fields.get? column e with
  | some v => v.cellText
  | none => ""

@[simp] theorem cell_of_missing {e : Event} {column : String} (h : Fields.get? column e = none) :
    e.cell column = "" := by
  simp [cell, h]

end Event

end TraceViewer
