import TraceViewer.Text.Quoted
import TraceViewer.Text.Search

/-!
Paths as texts of parts with slashes between them. Empty parts and single dots name nothing.
-/

namespace TraceViewer.Path

/-- The parts of a path that name something, two dots included. -/
def parts (path : String) : List String :=
  ((Text.splitAt ['/'] path.toList).map String.ofList).filter fun part => part ≠ "" && part ≠ "."

def isAbsolute (path : String) : Bool := path.toList.head? == some '/'

/-- The part of a path that names the file itself, unless that is the parent of something. -/
def fileName? (path : String) : Option String := (parts path).getLast?.filter (· ≠ "..")

/-- A file name without its ending: what precedes the last dot, unless nothing does. -/
def stem (name : String) : String :=
  match (Text.splitAt ['.'] name.toList).dropLast with
  | [] => name
  | before =>
    let stem := Text.join "." (before.map String.ofList)
    if stem.isEmpty then name else stem

/-- A path inside a folder, unless it is absolute. -/
def join (folder path : String) : String :=
  if isAbsolute path || folder.isEmpty then path
  else if folder.toList.getLast? == some '/' then folder ++ path
  else folder ++ "/" ++ path

/-- A path between double quotes, as messages show it. Quotes of both kinds are escaped in it. -/
def quoted (path : String) : String :=
  let escape (c : Char) : List Char :=
    if c == '\'' then ['\\', c] else Text.escapeChar '"' c
  .ofList ('"' :: path.toList.flatMap escape ++ ['"'])

end TraceViewer.Path
