import TraceViewer.Files.Tree
import TraceViewer.Files.Time
import TraceViewer.Parser.Record

/-!
The saved parsers and the file that holds them. Every change is made in memory first and then
written, so that memory is ahead of the file when the file cannot be written. Without a path the
records are only in memory.
-/

namespace TraceViewer

structure ParserStore where
  path : Option String := none
  records : List ParserRecord := []

namespace ParserStore

/-- The store of a path; a missing file is an empty store. -/
def load (path : Option String) (files : Files) : Except TransferFault ParserStore :=
  match path with
  | none => .ok {}
  | some file =>
    match files.readText file with
    | .error .missing => .ok { path }
    | .error fault => .error (.unreadable file fault)
    | .ok text =>
      match ParserRecord.ofFile? text with
      | some records => .ok { path, records }
      | none => .error (.undecodable file)

/-- Names and sources, as a registry takes them. -/
def sources (s : ParserStore) : List (String × String) := s.records.map fun p => (p.name, p.code)

/-- The id of the first record of a name. -/
def idOf? (s : ParserStore) (name : String) : Option Int :=
  (s.records.find? fun p => p.name == name).map (·.id)

/-- The id of the next new record: one more than the largest, or one where there is none. Ids have
64 bits, so the least one follows the greatest. -/
def nextId (records : List ParserRecord) : Int :=
  let last := ((records.map (·.id)).max?).getD 0
  if last = 0x7fffffffffffffff then -0x8000000000000000 else last + 1

/-- Changes the first record that a test picks. -/
def changeFirst (picks : ParserRecord → Bool) (change : ParserRecord → ParserRecord) :
    List ParserRecord → List ParserRecord
  | [] => []
  | p :: rest => if picks p then change p :: rest else p :: changeFirst picks change rest

/-- The records after saving a source text under a name, and the id that it is saved under. -/
def saved (records : List ParserRecord) (name code stamp : String) : Int × List ParserRecord :=
  match records.find? fun p => p.name == name with
  | some p =>
    let change p := { p with code, updated := stamp }
    (p.id, changeFirst (fun p => p.name == name) change records)
  | none =>
    let id := nextId records
    (id, records ++ [⟨id, name, code, stamp, stamp⟩])

/-- Writes the records to the file, in folders that are made where they are missing. -/
def write (s : ParserStore) (files : Files) (now : Int) : Except TransferFault Unit × Files :=
  match s.path with
  | none => (.ok (), files)
  | some path =>
    match files.makeParents path with
    | .error fault => (.error (.unwritable path fault), files)
    | .ok files =>
      match files.writeText path (ParserRecord.fileText s.records) now with
      | .error fault => (.error (.unwritable path fault), files)
      | .ok files => (.ok (), files)

/-- Saves a source text under a name, in the record of that name or in a new one, and gives its
id. -/
def upsert (s : ParserStore) (name code : String) (files : Files) (now : Int) :
    Except TransferFault Int × ParserStore × Files :=
  let (id, records) := saved s.records name code (Time.stamp now)
  let s := { s with records }
  match s.write files now with
  | (.ok (), files) => (.ok id, s, files)
  | (.error fault, files) => (.error fault, s, files)

/-- Deletes the record of an id, and gives it. -/
def delete (s : ParserStore) (id : Int) (files : Files) (now : Int) :
    Except TransferFault ParserRecord × ParserStore × Files :=
  match s.records.find? fun p => p.id == id with
  | none => (.error (.noRecord id), s, files)
  | some record =>
    let s := { s with records := s.records.eraseP fun p => p.id == id }
    match s.write files now with
    | (.ok (), files) => (.ok record, s, files)
    | (.error fault, files) => (.error fault, s, files)

end ParserStore

end TraceViewer
