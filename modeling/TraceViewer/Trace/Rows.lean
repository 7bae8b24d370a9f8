import TraceViewer.Trace.Payload

/-!
A payload as rows of a table. Each event of a group is given the id, the name and the time of its
group where it has none of its own, and the groups are summed up from the rows.
-/

namespace TraceViewer

/-- What is known of a group of rows. -/
structure GroupSummary where
  id : Json
  name : String
  time : String

/-- Rows with their name and their groups. -/
structure TraceRows where
  name : String
  rows : List Event := []
  groups : List GroupSummary := []
  severalGroups : Bool := false

mutual

/-- Whether two documents are equal. A whole number and a floating-point number never are. -/
def Json.same : Json → Json → Bool
  | .null, .null => true
  | .bool a, .bool b => a == b
  | .number (.whole a), .number (.whole b) => a == b
  | .number (.float a), .number (.float b) => a == b
  | .string a, .string b => a == b
  | .array a, .array b => Json.sameItems a b
  | .object a, .object b => Json.sameFields a b
  | _, _ => false

def Json.sameItems : List Json → List Json → Bool
  | [], [] => true
  | a :: as, b :: bs => Json.same a b && Json.sameItems as bs
  | _, _ => false

def Json.sameFields : List (String × Json) → List (String × Json) → Bool
  | [], [] => true
  | (k, a) :: as, (l, b) :: bs => k == l && Json.same a b && Json.sameFields as bs
  | _, _ => false

end

/-- Whether a value says anything: null, false, zero and the empty text do not. -/
def Json.isPresent : Json → Bool
  | .null => false
  | .bool b => b
  | .string s => !s.isEmpty
  | .number n => n.toFloat != 0
  | _ => true

namespace Event

/-- An event is an object; anything else is none. -/
def ofJson? (j : Json) : Option Event := j.object?

/-- The events in a list of documents. -/
def ofItems (items : List Json) : List Event := items.filterMap ofJson?

/-- A field that says something. -/
def present? (e : Event) (field : String) : Option Json :=
  (Fields.get? field e).filter Json.isPresent

/-- Sets a field that the event lacks. -/
def inherit (field : String) (value : Json) (e : Event) : Event :=
  match Fields.get? field e with
  | some _ => e
  | none => Fields.set field value e

/-- Whether an event tells of its group. -/
def isMarked (e : Event) : Bool :=
  (e.present? "upload_id").isSome || (e.present? "upload_name").isSome

end Event

namespace EventGroup

def nameText (g : EventGroup) : Json := .string (g.name.getD unknownName)

def timeText (g : EventGroup) : Json := .string (g.time.getD "")

/-- An event with what it lacks of its group. -/
def tag (g : EventGroup) (e : Event) : Event :=
  -- an event that has the field keeps it, even one that says nothing
  ((e.inherit "upload_id" g.id).inherit "upload_name" g.nameText).inherit "upload_time" g.timeText

/-- The events of groups, one group after another. -/
def rows (groups : List EventGroup) : List Event :=
  groups.flatMap fun g => (Event.ofItems g.events).map g.tag

/-- An event that names the id of an upload, but no name, with the name and the time of the first
group of that id. -/
def backfill (groups : List EventGroup) (e : Event) : Event :=
  match e.present? "upload_name", e.present? "upload_id" with
  | none, some id =>
    match groups.find? fun g => g.id.same id with
    | some g => Fields.set "upload_time" g.timeText (Fields.set "upload_name" g.nameText e)
    | none => e
  | _, _ => e

end EventGroup

namespace GroupSummary

/-- The group that an event tells of. A field with an underscore counts before the one without. -/
def ofEvent? (e : Event) : Option GroupSummary :=
  let pick (field : String) := e.present? ("_" ++ field) <|> e.present? field
  (pick "upload_id").map fun id =>
    { id
      name := ((pick "upload_name").map Json.cellText).getD unknownName
      time := ((pick "upload_time").map Json.cellText).getD "" }

/-- The groups of rows in the order of their first rows, each id once. -/
def ofRows (rows : List Event) : List GroupSummary :=
  rows.foldl (fun seen e =>
    match ofEvent? e with
    | some g => if seen.any fun s => s.id.same g.id then seen else seen ++ [g]
    | none => seen) []

end GroupSummary

namespace TraceRows

/-- The rows of a payload. -/
def rowsOf : Payload → List Event
  | .events items => Event.ofItems items
  | .wrapped _ _ items none => Event.ofItems items
  | .wrapped _ _ items (some uploads) => (Event.ofItems items).map (EventGroup.backfill uploads)
  | .uploads groups => EventGroup.rows groups
  | .traces groups => EventGroup.rows groups

/-- The rows of a payload, named by it or else by `fallback`. -/
def ofPayload (payload : Payload) (fallback : String) : TraceRows :=
  let rows := rowsOf payload
  -- a flat list has groups as well when its events name them
  let severalGroups := payload.hasGroups || rows.any Event.isMarked
  { name := payload.name?.getD fallback
    rows
    groups := if severalGroups then GroupSummary.ofRows rows else []
    severalGroups }

end TraceRows

end TraceViewer
