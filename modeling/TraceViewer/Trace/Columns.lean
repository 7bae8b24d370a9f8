import TraceViewer.Trace.Event

/-!
The columns of a table: the names of all fields that some event has, in an order that does not
depend on the order of the events. The operation comes first, then the arguments by their numbers,
then the rest by name.
-/

namespace TraceViewer.Columns

/-- The column that comes first. -/
def primary : String := "operation"

/-- The field that is no column. -/
def identifier : String := "id"

/-- Whether a field tells of the group of an event and not of the event. -/
def isGroupField (name : String) : Bool := name.startsWith "upload_" || name.startsWith "_upload_"

/-- The number of an argument's column: "arg" and digits whose number fits 64 bits. -/
def argument? (name : String) : Option Nat :=
  match name.toList with
  | 'a' :: 'r' :: 'g' :: digits =>
    let n := digits.foldl (fun n c => n * 10 + (c.toNat - '0'.toNat)) 0
    if !digits.isEmpty && digits.all Char.isDigit && n ≤ Number.maxSize then some n else none
  | _ => none

/-- All names of fields of some events, in order, each once. -/
def fieldNames (rows : List Event) : List String :=
  let see seen row := row.foldl (fun seen f => Fields.set f.1 () seen) seen
  Fields.names (rows.foldl see [])

/-- Whether a field is shown; what tells of groups is left out where there are several. -/
def isShown (severalGroups : Bool) (name : String) : Bool :=
  name != identifier && !(severalGroups && isGroupField name)

/-- Puts a numbered name in its place by number, equal numbers by name. -/
def insertArgument (a : Nat × String) : List (Nat × String) → List (Nat × String)
  | [] => [a]
  | b :: rest =>
    if a.1 < b.1 || (a.1 == b.1 && a.2 < b.2) then a :: b :: rest else b :: insertArgument a rest

/-- The columns of the argument fields, by number. -/
def arguments (names : List String) : List String :=
  let numbered := names.filterMap fun name => (argument? name).map fun n => (n, name)
  (numbered.foldl (fun sorted a => insertArgument a sorted) []).map (·.2)

/-- The columns of some events. -/
def ofEvents (rows : List Event) (severalGroups : Bool) : List String :=
  let names := (fieldNames rows).filter (isShown severalGroups)
  names.filter (· == primary) ++ arguments names ++
    names.filter fun name => name != primary && (argument? name).isNone

end TraceViewer.Columns
