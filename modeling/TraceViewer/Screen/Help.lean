import TraceViewer.Screen.Row

/-!
The keys as the help shows them.
-/

namespace TraceViewer

/-- Keys that do something in a part of the program. -/
structure Shortcut where
  context : String
  keys : String
  description : String

/-- All keys, those of one context together. -/
def shortcuts : List Shortcut :=
  [⟨"Global", "q, Ctrl+C", "Quit"⟩,
    ⟨"Global", "?", "Toggle help"⟩,
    ⟨"Global", "/", "Filter rows (expression over row)"⟩,
    ⟨"Global", "c", "Column panel"⟩,
    ⟨"Global", "p", "Parser panel"⟩,
    ⟨"Global", "t", "Pick trace file"⟩,
    ⟨"Global", "m", "Toggle by-upload / consolidated"⟩,
    ⟨"Global", "r", "Reload"⟩,
    ⟨"Global", "E", "Export visible rows as CSV"⟩,
    ⟨"Global", "Ctrl+E", "Open event in $EDITOR"⟩,
    ⟨"Global", "Ctrl+N / Ctrl+P", "Next/previous event"⟩,
    ⟨"Global", "Ctrl+L", "Force redraw"⟩,
    ⟨"List", "j/k, Up/Down", "Move selection"⟩,
    ⟨"List", "h/l, 0/$", "Scroll columns"⟩,
    ⟨"List", "Ctrl+d / Ctrl+u", "Half-page down/up"⟩,
    ⟨"List", "g / G", "Jump to top/bottom"⟩,
    ⟨"List", "Enter, Tab", "Focus event"⟩,
    ⟨"List", "z", "Toggle zoom"⟩,
    ⟨"Event", "j/k, Ctrl+d/u, g/G", "Scroll"⟩,
    ⟨"Event", "Tab, Left, Esc", "Back to list"⟩,
    ⟨"Columns", "Enter or /", "Edit column filter"⟩,
    ⟨"Columns", "s", "Sort (again to reverse)"⟩,
    ⟨"Columns", "x", "Clear column filter"⟩,
    ⟨"Columns", "J / K", "Move column"⟩,
    ⟨"Parsers", "n / e", "New / edit in $EDITOR"⟩,
    ⟨"Parsers", "d", "Delete"⟩,
    ⟨"Parsers", "t", "Test with a sample value"⟩]

/-- The columns of the keys in the help. -/
def keysWidth : Nat := 20

/-- The lines of the help: each context under its name, after an empty line unless it is the
first. -/
def helpLines (before : Option String) : List Shortcut → List String
  | [] => []
  | s :: rest =>
    let heading :=
      if before = some s.context then []
      else if before.isSome then ["", s.context]
      else [s.context]
    heading ++ (s.keys ++ spaces (keysWidth - s.keys.length) ++ s.description) ::
      helpLines (some s.context) rest

end TraceViewer
