import TraceViewer.Files.Tree
import TraceViewer.Files.Time
import TraceViewer.Json.Reader
import TraceViewer.Trace.Columns
import TraceViewer.Trace.Rows

/-!
Loading traces: one source on its own, or all sources consolidated, each as one group of rows.
-/

namespace TraceViewer

/-- Where a trace comes from: a file, or a text with a label. -/
inductive TraceSource where
  | file (path : String)
  | inline (label text : String)

/-- How sources are shown: one at a time, or all together. -/
inductive ViewMode where
  | byUpload
  | consolidated
  deriving Repr, DecidableEq

namespace ViewMode

def toggled : ViewMode → ViewMode
  | .byUpload => .consolidated
  | .consolidated => .byUpload

def label : ViewMode → String
  | .byUpload => "by upload"
  | .consolidated => "consolidated"

end ViewMode

/-- What loading a source gave: the number of its rows, or why there are none. -/
structure SourceSummary where
  label : String
  rowCount : Nat := 0
  error : Option TransferFault := none

/-- Rows with their columns, and summaries of the sources that they come from by position. -/
structure LoadedTrace where
  trace : TraceRows
  columns : List String
  summaries : List (Nat × SourceSummary)

namespace TraceSource

def label : TraceSource → String
  | .file path => (Path.fileName? path).getD path
  | .inline label _ => label

/-- The label without a file's ending. -/
def stem (s : TraceSource) : String :=
  match s with
  | .file path =>
    match Path.fileName? path with
    | some name => Path.stem name
    | none => s.label
  | .inline label _ => label

def text (files : Files) : TraceSource → Except TransferFault String
  | .file path => (files.readText path).mapError (TransferFault.unreadable path)
  | .inline _ text => .ok text

def document (files : Files) (s : TraceSource) : Except TransferFault Json :=
  match s.text files with
  | .error fault => .error fault
  | .ok text =>
    match Json.read? text with
    | some j => .ok j
    | none => .error (.undecodable s.label)

/-- When a file was last changed; empty where that is not known. -/
def changed (files : Files) : TraceSource → String
  | .file path => ((files.changed? path).map Time.stamp).getD ""
  | .inline _ _ => ""

/-- The rows of one source. A document that is no trace has none. -/
def rows (files : Files) (s : TraceSource) : Except TransferFault TraceRows :=
  match s.document files with
  | .error fault => .error fault
  | .ok j =>
    match Payload.ofJson j with
    | .ok payload => .ok (.ofPayload payload s.label)
    -- readable JSON of another shape is no fault of the source
    | .error _ => .ok { name := s.label }

/-- The summary of a source. -/
def summary (files : Files) (s : TraceSource) : SourceSummary :=
  match s.rows files with
  | .ok trace => { label := s.label, rowCount := trace.rows.length }
  | .error fault => { label := s.label, error := some fault }

/-- The rows of a source as a group; its id is the source's place, counted from one. -/
def group? (files : Files) (position : Nat) (s : TraceSource) : Option EventGroup :=
  match s.rows files with
  | .ok trace =>
    some
      { id := .ofInt (position + 1)
        name := some s.stem
        time := some (s.changed files)
        events := trace.rows.map Json.object }
  | .error _ => none

end TraceSource

namespace TraceRows

/-- The rows of all sources, each source a group. Sources that cannot be loaded have no rows. -/
def consolidated (files : Files) (sources : List TraceSource) : TraceRows :=
  let rows := EventGroup.rows (sources.zipIdx.filterMap fun s => s.1.group? files s.2)
  { name := "consolidated", rows, groups := GroupSummary.ofRows rows, severalGroups := true }

end TraceRows

namespace LoadedTrace

/-- A trace with its columns. -/
def ofRows (trace : TraceRows) (summaries : List (Nat × SourceSummary)) : LoadedTrace :=
  { trace, columns := Columns.ofEvents trace.rows trace.severalGroups, summaries }

/-- Loads the selected source, or all of them. -/
def load (files : Files) (sources : List TraceSource) (mode : ViewMode) (selected : Nat) :
    Except TransferFault LoadedTrace :=
  match mode with
  | .byUpload =>
    match sources[selected]? with
    | none => .error (.noSource selected)
    | some s =>
      match s.rows files with
      | .error fault => .error fault
      | .ok trace => .ok (.ofRows trace [(selected, s.summary files)])
  | .consolidated =>
    -- a source that cannot be loaded shows in its summary only
    let summaries := sources.zipIdx.map fun s => (s.2, s.1.summary files)
    .ok (.ofRows (.consolidated files sources) summaries)

end LoadedTrace

end TraceViewer
