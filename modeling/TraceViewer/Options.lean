import TraceViewer.Text.Search

/-!
The options of the command line. Words are read from left to right; a value is checked only once
the word after it shows that nothing more belongs to it.
-/

namespace TraceViewer

/-- What the program is started with. -/
structure Options where
  files : List String := []
  consolidated : Bool := false
  parsers : Option String := none
  exportFolder : Option String := none
  logFile : Option String := none
  logLevel : Option String := none
  deriving Repr, DecidableEq

/-- Why the program is not started. -/
inductive OptionFault where
  | unknown
  | badValue
  | repeated
  | surplusValue
  | help
  | version
  deriving Repr, DecidableEq

/-- The options that take a value. -/
inductive ValueOption where
  | parsers
  | exportFolder
  | logFile
  | logLevel
  deriving Repr, DecidableEq

namespace ValueOption

def ofName? (name : String) : Option ValueOption :=
  match name with
  | "parsers" => some .parsers
  | "export-dir" => some .exportFolder
  | "log-file" => some .logFile
  | "log-level" => some .logLevel
  | _ => none

/-- Whether the value may be empty; a path may not. -/
def allowsEmpty : ValueOption → Bool
  | .logLevel => true
  | _ => false

end ValueOption

namespace Options

/-- The folder for exported tables where none is given. -/
def defaultExportFolder : String := "."

/-- What is logged where nothing is said about it. -/
def defaultLogLevel : String := "info"

def value? (o : Options) : ValueOption → Option String
  | .parsers => o.parsers
  | .exportFolder => o.exportFolder
  | .logFile => o.logFile
  | .logLevel => o.logLevel

def setValue (o : Options) (option : ValueOption) (value : String) : Options :=
  match option with
  | .parsers => { o with parsers := some value }
  | .exportFolder => { o with exportFolder := some value }
  | .logFile => { o with logFile := some value }
  | .logLevel => { o with logLevel := some value }

/-- What was read but not checked yet: an option that waits for its value, one that has it, or
files in a row. -/
inductive Pending where
  | nothing
  | awaiting (option : ValueOption)
  | value (option : ValueOption) (text : String)
  | files (paths : List String)

/-- The options so far and what waits to be checked. -/
structure Reading where
  options : Options := {}
  pending : Pending := .nothing

namespace Reading

/-- Checks what waits. A value that is missing, given twice or empty is refused in this order. -/
def settle (r : Reading) : Except OptionFault Options :=
  match r.pending with
  | .nothing => .ok r.options
  | .awaiting _ => .error .badValue
  | .value option text =>
    if (r.options.value? option).isSome then .error .repeated
    else if text.isEmpty && !option.allowsEmpty then .error .badValue
    else .ok (r.options.setValue option text)
  | .files paths =>
    if paths.any String.isEmpty then .error .badValue
    else .ok { r.options with files := r.options.files ++ paths }

/-- A word that is no option, after the files before it. -/
def file (r : Reading) (path : String) : Except OptionFault Reading :=
  match r.pending with
  | .files paths => .ok { r with pending := .files (paths ++ [path]) }
  | _ => r.settle.map fun options => ⟨options, .files [path]⟩

/-- The option to show all sources together, which is given at most once. -/
def consolidate (r : Reading) : Except OptionFault Reading :=
  match r.settle with
  | .error fault => .error fault
  | .ok options =>
    if options.consolidated then .error .repeated
    else .ok { options := { options with consolidated := true } }

/-- What is shown instead of starting the program, once all before it is in order. -/
def showInstead (r : Reading) (fault : OptionFault) : Except OptionFault Reading :=
  match r.settle with
  | .error earlier => .error earlier
  | .ok _ => .error fault

/-- A word of letters after one dash. -/
def letters (r : Reading) : List Char → Except OptionFault Reading
  | [] => .ok r
  | c :: rest =>
    match c with
    | 'c' =>
      match r.consolidate with
      | .error fault => .error fault
      | .ok r => r.letters rest
    | 'h' => r.showInstead .help
    | 'V' => r.showInstead .version
    | _ => .error .unknown

/-- An option without a value. -/
def flag (r : Reading) (value : Option String) (read : Reading → Except OptionFault Reading) :
    Except OptionFault Reading :=
  if value.isSome then .error .surplusValue else read r

/-- A word after two dashes, with the value after its equals sign. -/
def long (r : Reading) (name : String) (value : Option String) : Except OptionFault Reading :=
  match name with
  | "consolidated" => r.flag value consolidate
  | "help" => r.flag value fun r => r.showInstead .help
  | "version" => r.flag value fun r => r.showInstead .version
  | name =>
    match ValueOption.ofName? name, r.settle with
    | none, _ => .error .unknown
    | some _, .error fault => .error fault
    | some option, .ok options =>
      match value with
      | none => .ok ⟨options, .awaiting option⟩
      | some text =>
        match (⟨options, .value option text⟩ : Reading).settle with
        | .error fault => .error fault
        | .ok options => .ok { options }

/-- A word that starts with no dash, or is a dash alone: the value of the option before it, or a
file. -/
def plain (r : Reading) (word : String) : Except OptionFault Reading :=
  match r.pending with
  | .awaiting option => .ok { r with pending := .value option word }
  | _ => r.file word

/-- The words after two dashes alone, which are all files. -/
def files (r : Reading) : List String → Except OptionFault Reading
  | [] => .ok r
  | path :: rest =>
    match r.file path with
    | .error fault => .error fault
    | .ok r => r.files rest

/-- One word that is not two dashes alone. -/
def word (r : Reading) (word : String) : Except OptionFault Reading :=
  match word.toList with
  | '-' :: '-' :: rest =>
    match Text.cutAt? ['='] rest with
    | some (name, value) => r.long (.ofList name) (some (.ofList value))
    | none => r.long (.ofList rest) none
  | '-' :: c :: rest => r.letters (c :: rest)
  | _ => r.plain word

/-- All words. -/
def words (r : Reading) : List String → Except OptionFault Reading
  | [] => .ok r
  | "--" :: rest => r.files rest
  | word :: rest =>
    match r.word word with
    | .error fault => .error fault
    | .ok r => r.words rest

end Reading

/-- The options in the words of a command line. -/
def ofWords (words : List String) : Except OptionFault Options :=
  match ({} : Reading).words words with
  | .error fault => .error fault
  | .ok r => r.settle

end Options

end TraceViewer
