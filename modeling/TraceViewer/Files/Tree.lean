import TraceViewer.Files.Path
import TraceViewer.Number.Fixed

/-!
The files that a program reads and writes: a tree of folders, as far as it is known. What a write
puts in a place a later read finds there.
-/

namespace TraceViewer

/-- What a place holds. The time of a file's last change counts seconds from the start of 1970. -/
inductive Node where
  | file (bytes : ByteArray) (changed : Int)
  | folder

/-- A place: the names on the way to it. Absolute places start with a slash. -/
abbrev Place := List String

/-- The known places and what they hold; of entries for one place the first counts. -/
structure Files where
  entries : List (Place × Node) := []

/-- Why a file cannot be read or written. -/
inductive FileFault where
  | missing
  | refused
  deriving Repr, DecidableEq

/-- Stands in messages for the reason why a file cannot be read or written. -/
def FileFault.reason (_ : FileFault) : String := "<io error>"

namespace Path

/-- The place that a path leads to; two dots lead back. -/
def place (path : String) : Place :=
  let start := if isAbsolute path then ["/"] else []
  let step way part := if part = ".." then way.drop 1 else part :: way
  start ++ ((parts path).foldl step []).reverse

/-- Whether a path insists on a folder, by a slash at its end. -/
def namesFolder (path : String) : Bool := path.toList.getLast? == some '/'

/-- Whether every part of a path may be a name. -/
def isNameable (path : String) : Bool :=
  !path.isEmpty && !path.toList.contains '\x00' &&
    (parts path).all fun part => part.utf8ByteSize ≤ 255

end Path

namespace Files

/-- What a place holds. The starting places always hold folders. -/
def node? (f : Files) (place : Place) : Option Node :=
  if place = [] || place = ["/"] then some .folder else f.entries.lookup place

def isFolder (f : Files) (place : Place) : Bool :=
  match f.node? place with
  | some .folder => true
  | _ => false

def isFile (f : Files) (place : Place) : Bool :=
  match f.node? place with
  | some (.file _ _) => true
  | _ => false

/-- Whether a file stands on the way to a place, where a folder would have to be. -/
def isBlocked (f : Files) (place : Place) : Bool :=
  (List.range place.length).any fun n => f.isFile (place.take n)

/-- The bytes of a file and the time of its last change. -/
def read? (f : Files) (path : String) : Except FileFault (ByteArray × Int) :=
  let place := Path.place path
  match f.node? place with
  | some (.file bytes changed) =>
    if Path.namesFolder path then .error .refused else .ok (bytes, changed)
  | some .folder => .error (if path.isEmpty then .missing else .refused)
  | none =>
    .error (if path.isEmpty || (Path.isNameable path && !f.isBlocked place) then .missing
      else .refused)

/-- The text of a file, which must be UTF-8. -/
def readText (f : Files) (path : String) : Except FileFault String :=
  match f.read? path with
  | .error fault => .error fault
  | .ok (bytes, _) =>
    match String.fromUTF8? bytes with
    | some text => .ok text
    | none => .error .refused

/-- The time of a file's last change. -/
def changed? (f : Files) (path : String) : Option Int :=
  match f.read? path with
  | .ok (_, changed) => some changed
  | .error _ => none

/-- Puts something in a place. -/
def put (f : Files) (place : Place) (node : Node) : Files :=
  ⟨(place, node) :: f.entries.filter fun e => e.1 ≠ place⟩

/-- Writes a file at a point of time, in a folder that is there. -/
def write (f : Files) (path : String) (bytes : ByteArray) (now : Int) : Except FileFault Files :=
  let place := Path.place path
  if !Path.isNameable path || Path.namesFolder path || f.isFolder place then .error .refused
  else if f.isFolder place.dropLast then .ok (f.put place (.file bytes now))
  else .error (if f.isBlocked place then .refused else .missing)

def writeText (f : Files) (path text : String) (now : Int) : Except FileFault Files :=
  f.write path text.toUTF8 now

/-- Makes the folders on the way to a path, as far as they are missing. -/
def makeParents (f : Files) (path : String) : Except FileFault Files :=
  let place := Path.place path
  if !Path.isNameable path || f.isBlocked place then .error .refused
  else
    .ok ((List.range place.length).foldl (fun f n =>
      if f.isFolder (place.take n) then f else f.put (place.take n) .folder) f)

end Files

/-! ## Faults of a transfer -/

/-- What can go wrong between the program and its files: traces, the saved parsers and exported
tables. -/
inductive TransferFault where
  | unreadable (path : String) (fault : FileFault)
  | unwritable (path : String) (fault : FileFault)
  | undecodable (origin : String)
  | noSource (position : Nat)
  | noRecord (id : Int)

/-- Stands in messages for the reason why a text is no JSON document of the wanted form. -/
def decodingReason : String := "<json error>"

def TransferFault.message : TransferFault → String
  | .unreadable path fault => "reading " ++ Path.quoted path ++ ": " ++ fault.reason
  | .unwritable path fault => "writing " ++ Path.quoted path ++ ": " ++ fault.reason
  | .undecodable origin => "decoding " ++ origin ++ ": " ++ decodingReason
  | .noSource position => "no trace source at position " ++ Number.natText position
  | .noRecord id => "parser store has no entry with id " ++ Number.intText id

end TraceViewer
