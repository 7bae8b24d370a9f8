import TraceViewer.Options
import TraceViewer.Screen.Frame
import TraceViewer.Session.Start
import TraceViewer.Session.Template

/-!
The command line. The files of a session are taken in before it starts, and those that it changes
are written back after each line of keys. Keys are read from the standard input, and the screen is
written to the standard output, without its colours. No editor is started: a text to edit is printed,
and what stands for it afterwards is read as lines. The options of the log are read, but there is no
log.

Some modules do the work of libraries, as far as it is needed here: documents (`Json`), regular
expressions (`Regex`, which theorems take as a parameter), the widths of characters (`Text/Width`,
`Text/Symbol`), dates (`Files/Time`), the layout of a screen (`Screen/Area`, `Screen/Canvas`,
`Screen/Wrap`) and the words of a command line (`Options`).
-/

namespace TraceViewer.CommandLine

/-- The size of the screen in cells. -/
def screenSize : Nat × Nat := (120, 40)

/-- Ends a source text that is read line by line. -/
def endOfText : String := "."

def usage : String :=
  "usage: traceviewer [-c] [--parsers FILE] [--export-dir FOLDER] [--log-file FILE]\n" ++
    "  [--log-level LEVEL] FILES...\n" ++
    "Each line of the input holds keys: characters, and names in angle brackets such as <enter>."

/-- What is told about options in place of a session. -/
def faultText : OptionFault → String
  | .unknown => "unknown option\n" ++ usage
  | .badValue => "a value is missing or empty\n" ++ usage
  | .repeated => "an option is given twice\n" ++ usage
  | .surplusValue => "an option without a value has one\n" ++ usage
  | .help => usage
  | .version => "traceviewer 0.1.0"

/-- Help and version are asked for; everything else is a failure. -/
def exitCode : OptionFault → UInt32
  | .help | .version => 0
  | _ => 2

/-! ## Files -/

/-- The present time in seconds from the start of 1970, as a file shows it that is made now. -/
def presentTime : IO Int := do
  let (_, path) ← IO.FS.createTempFile
  let info ← path.metadata
  IO.FS.removeFile path
  return info.modified.sec

/-- The known files with one more, unless it cannot be read. -/
def takeIn (files : Files) (path : String) : IO Files := do
  try
    let bytes ← IO.FS.readBinFile path
    let info ← (← IO.FS.realPath path).metadata
    let files := (files.makeParents path).toOption.getD files
    return files.put (Path.place path) (.file bytes info.modified.sec)
  catch _ => return files

/-- The known files with a folder, unless there is none. -/
def takeInFolder (files : Files) (path : String) : IO Files := do
  if ← (← IO.FS.realPath path).isDir then
    return (files.makeParents (Path.join path endOfText)).toOption.getD files
  else return files

def takeInSources (files : Files) (sources : List TraceSource) : IO Files :=
  sources.foldlM (fun files source =>
    match source with
    | .file path => takeIn files path
    | .inline _ _ => return files) files

/-- The path of a place. -/
def placePath : Place → String
  | "/" :: names => "/" ++ Text.join "/" names
  | names => Text.join "/" names

/-- Whether a place held a file of these bytes already. -/
def holds (files : Files) (place : Place) (bytes : ByteArray) : Bool :=
  match files.node? place with
  | some (.file old _) => old == bytes
  | _ => false

/-- Writes the files that are new or changed. -/
def writeBack (before after : Files) : IO Unit := do
  for (place, node) in after.entries do
    if let .file bytes _ := node then
      if !holds before place bytes then
        if 1 < place.length then IO.FS.createDirAll (placePath place.dropLast)
        IO.FS.writeBinFile (placePath place) bytes

/-! ## Keys -/

/-- The keys on a line, of which `bound` characters are left at most. -/
def keysFrom : Nat → List Char → List Key
  | 0, _ => []
  | _, [] => []
  | bound + 1, c :: rest =>
    let named :=
      match Text.cutAt? ['>'] rest with
      | some (name, after) =>
        ((Key.ofChars? (c :: name ++ ['>'])) <|> Key.ofChars? name).map fun key => (key, after)
      | none => none
    match c, named with
    | '<', some (key, after) => key :: keysFrom bound after
    | c, _ => .char c :: keysFrom bound rest

def keysOf (line : String) : List Key :=
  let cs := line.toList.filter fun c => c != '\n' && c != '\r'
  keysFrom cs.length cs

/-! ## The session -/

def draw (s : Session) : IO Session := do
  let (canvas, s) := s.draw screenSize.1 screenSize.2
  for line in canvas.texts do
    IO.println line
  return { s with needsRedraw := false }

/-- Reads lines up to one that ends the text. -/
partial def readText (input : IO.FS.Stream) (text : String) : IO String := do
  let line ← input.getLine
  if line.isEmpty || Text.trim line == endOfText then return text
  else readText input (text ++ line)

/-- Does what a key asks for. -/
def perform (input : IO.FS.Stream) (s : Session) (action : Action) : IO Session := do
  if let some text := s.editorText? action then IO.println text
  match action with
  | .proceed | .quit | .openEvent => return s
  | .load request =>
    let s := { s with files := ← takeInSources s.files s.sources }
    return (s.applyLoad (s.respond request)).2
  | .newParser | .editParser _ => return s.closeEditor action (← readText input "")

/-- Presses keys until one ends the session, and tells whether one did. -/
def pressAll (input : IO.FS.Stream) (s : Session) : List Key → IO (Bool × Session)
  | [] => return (false, s)
  | key :: rest => do
    let (action, s) := s.press key
    if action = .quit then return (true, s)
    else pressAll input (← perform input s action) rest

/-- Draws the screen and presses the keys of a line, over and over. -/
partial def serve (input : IO.FS.Stream) (s : Session) : IO Unit := do
  let s ← draw s
  let line ← input.getLine
  if line.isEmpty then return
  let before := s.files
  let (ended, s) ← pressAll input { s with clock := ← presentTime } (keysOf line)
  writeBack before s.files
  if ended then return else serve input s

def run (options : Options) : IO Unit := do
  let sources := options.files.map TraceSource.file
  let folder := options.exportFolder.getD Options.defaultExportFolder
  let files ← takeInFolder (← takeInSources {} sources) folder
  let files ← options.parsers.elim (pure files) (takeIn files)
  let clock ← presentTime
  let setup := ParserSetup.start options.parsers {} files clock
  writeBack files setup.files
  let mode := if options.consolidated then ViewMode.consolidated else .byUpload
  let s := Session.start setup sources mode folder clock
  let input ← IO.getStdin
  let (request, s) := s.requestLoad
  serve input (← perform input s (.load request))

/-- Runs a session, or tells why there is none. -/
def start (words : List String) : IO UInt32 := do
  match Options.ofWords words with
  | .error fault =>
    IO.eprintln (faultText fault)
    return exitCode fault
  | .ok options =>
    if options.files.isEmpty then
      IO.eprintln ("no trace files given\n" ++ usage)
      return 2
    else
      run options
      return 0

end TraceViewer.CommandLine

def main (words : List String) : IO UInt32 := TraceViewer.CommandLine.start words
