import TraceViewer.Trace.Event

/-!
The forms in which a trace arrives as JSON: a list of events, an object around such a list, or
groups of events that were uploaded together.
-/

namespace TraceViewer

/-- Events that arrived together, with what is known of the upload. -/
structure EventGroup where
  id : Json := .null
  name : Option String := none
  time : Option String := none
  events : List Json := []

/-- Names a group that has no name of its own. -/
def unknownName : String := "Unknown"

inductive Payload where
  | events (items : List Json)
  | wrapped (name fileName : Option String) (items : List Json) (uploads : Option (List EventGroup))
  | uploads (groups : List EventGroup)
  | traces (groups : List EventGroup)

/-- Why a document is no trace. -/
inductive PayloadFault where
  | badRoot (kind : String)
  | noEvents
  deriving Repr, DecidableEq

def PayloadFault.message : PayloadFault → String
  | .badRoot kind => "expected an array of events or an object, got " ++ kind
  | .noEvents => "object has none of the fields \x60events\x60, \x60uploads\x60 or \x60traces\x60"

/-- The text of a member, if that is a string. -/
def Json.memberText? (key : String) (j : Json) : Option String := (j.get? key).bind Json.string?

/-- The items of a member, if that is an array. -/
def Json.memberItems? (key : String) (j : Json) : Option (List Json) :=
  (j.get? key).bind Json.array?

namespace EventGroup

/-- A group whose id, name and time stand in the members of the given names. What is no object is
an empty group. -/
def ofMembers (id name time : String) (j : Json) : EventGroup :=
  { id := (j.get? id).getD .null
    name := j.memberText? name
    time := j.memberText? time
    events := (j.memberItems? "events").getD [] }

def ofUpload (j : Json) : EventGroup := ofMembers "id" "name" "timestamp" j

def ofTrace (j : Json) : EventGroup := ofMembers "upload_id" "upload_name" "upload_time" j

end EventGroup

namespace Payload

/-- The trace in a document. Events stand before uploads, and uploads before traces. -/
def ofJson (j : Json) : Except PayloadFault Payload :=
  match j with
  | .array items => .ok (.events items)
  | .object _ =>
    let uploaded := (j.memberItems? "uploads").map fun groups => groups.map EventGroup.ofUpload
    match j.memberItems? "events", uploaded, j.memberItems? "traces" with
    | some items, _, _ =>
      .ok (.wrapped (j.memberText? "name") (j.memberText? "filename") items uploaded)
    | none, some groups, _ => .ok (.uploads groups)
    | none, none, some groups => .ok (.traces (groups.map EventGroup.ofTrace))
    | none, none, none => .error .noEvents
  | j => .error (.badRoot j.kind)

/-- Whether a payload tells of uploads. -/
def hasGroups : Payload → Bool
  | .events _ => false
  | .wrapped _ _ _ groups => groups.isSome
  | .uploads _ | .traces _ => true

def name? : Payload → Option String
  | .wrapped name fileName _ _ => name <|> fileName
  | _ => none

end Payload

end TraceViewer
