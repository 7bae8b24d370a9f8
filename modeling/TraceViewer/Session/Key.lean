import TraceViewer.Session.Editing
import TraceViewer.Session.Loading

/-!
What each key does in each mode of input. A key changes the session, and may ask for something that
the session cannot do itself.
-/

namespace TraceViewer

inductive Key where
  | char (c : Char) (control : Bool := false)
  | enter
  | escape
  | tab
  | backspace
  | up
  | down
  | left
  | right
  | home
  deriving Repr, DecidableEq

namespace Key

/-- The keys without a character, by their names. -/
def named? (name : String) : Option Key :=
  match name with
  | "enter" => some .enter
  | "esc" => some .escape
  | "tab" => some .tab
  | "backspace" => some .backspace
  | "up" => some .up
  | "down" => some .down
  | "left" => some .left
  | "right" => some .right
  | "home" => some .home
  | _ => none

/-- A key as it is written: a character, "C-" before a character for the control key, or a name in
angle brackets. -/
def ofChars? : List Char → Option Key
  | [c] => some (.char c)
  | ['C', '-', c] => some (.char c true)
  | '<' :: rest =>
    if rest.getLast? == some '>' then named? (.ofList rest.dropLast) else none
  | _ => none

end Key

/-- What has to be done after a key. -/
inductive Action where
  | proceed
  | quit
  | load (request : LoadRequest)
  | newParser
  | editParser (name : String)
  | openEvent
  deriving Repr, DecidableEq

namespace Session

/-! ## Prompts -/

/-- The mode that a prompt was opened from. -/
def modeBefore : InputMode → InputMode
  | .filter (.column _) => .columns
  | .parserTest _ => .parsers
  | _ => .normal

/-- A text without its last character. -/
def dropLast (text : String) : String := .ofList text.toList.dropLast

def submit (s : Session) : Session :=
  match s.input with
  | .filter target => s.submitFilter target
  | .parserTest name => s.testParser name s.buffer
  | _ => s

def typeKey (s : Session) : Key → Session
  | .escape => { s with buffer := "", input := modeBefore s.input }
  | .enter => s.submit
  | .backspace => { s with buffer := dropLast s.buffer }
  | .char c true => if c = 'u' then { s with buffer := "" } else s
  | .char c false => { s with buffer := s.buffer.push c }
  | _ => s

/-! ## Panels -/

def columnKey (s : Session) (key : Key) : Action × Session :=
  let count := s.table.columns.length
  let choose (columnList : ListPosition) : Action × Session := (.proceed, { s with columnList })
  match key with
  | .escape | .char 'c' _ => (.proceed, { s with input := .normal })
  | .char 'q' _ => (.quit, s)
  | .down | .char 'j' _ => choose (s.columnList.move count 1)
  | .up | .char 'k' _ => choose (s.columnList.move count (-1))
  | .char 'g' _ => choose (s.columnList.selectFirst count)
  | .char 'G' _ => choose (s.columnList.selectLast count)
  | .char 'J' _ => (.proceed, s.moveColumn 1)
  | .char 'K' _ => (.proceed, s.moveColumn (-1))
  | .char 's' _ => (.proceed, s.sortSelectedColumn)
  | .char 'x' _ => (.proceed, s.clearSelectedFilter)
  | .enter | .char '/' _ =>
    match s.selectedColumn? with
    | some column => (.proceed, s.beginFilter (.column column))
    | none => (.proceed, s)
  | _ => (.proceed, s)

/-- Moves the selection of a parser, whose test result is forgotten. -/
def moveParser (s : Session) (delta : Int) : Session :=
  { s with
    parserList := s.parserList.move s.registry.parsers.length delta
    testResult := none }

def parserKey (s : Session) (key : Key) : Action × Session :=
  match key with
  | .escape | .char 'p' _ => (.proceed, { s with testResult := none, input := .normal })
  | .char 'q' _ => (.quit, s)
  | .down | .char 'j' _ => (.proceed, s.moveParser 1)
  | .up | .char 'k' _ => (.proceed, s.moveParser (-1))
  | .char 'n' _ => (.newParser, s)
  | .enter | .char 'e' _ =>
    match s.selectedParser? with
    | some name => (.editParser name, s)
    | none => (.proceed, s)
  | .char 'd' _ => (.proceed, s.deleteSelectedParser)
  | .char 't' _ =>
    match s.selectedParser? with
    | some name =>
      (.proceed, { s with buffer := "", testResult := none, input := .parserTest name })
    | none => (.proceed, s)
  | _ => (.proceed, s)

def sourceKey (s : Session) (key : Key) : Action × Session :=
  let count := s.sources.length
  match key with
  | .escape | .char 't' _ => (.proceed, { s with input := .normal })
  | .char 'q' _ => (.quit, s)
  | .down | .char 'j' _ => (.proceed, { s with sourceList := s.sourceList.move count 1 })
  | .up | .char 'k' _ => (.proceed, { s with sourceList := s.sourceList.move count (-1) })
  | .enter =>
    match { s with input := .normal }.selectSource (s.sourceList.selected.getD 0) with
    | (some request, s) => (.load request, s)
    | (none, s) => (.proceed, s)
  | _ => (.proceed, s)

/-! ## Panes -/

def openColumns (s : Session) : Session :=
  let columnList :=
    if s.columnList.selected.isNone then s.columnList.selectFirst s.table.columns.length
    else s.columnList
  { s with input := .columns, columnList }

def openParsers (s : Session) : Session :=
  let parserList :=
    if s.parserList.selected.isNone then s.parserList.selectFirst s.registry.parsers.length
    else s.parserList
  { s with input := .parsers, parserList }

def openSources (s : Session) : Session :=
  { s with input := .sources, sourceList := s.sourceList.select (some s.selectedSource) }

/-- The keys that mean the same in both panes. -/
def commonKey? (s : Session) (key : Key) : Option (Action × Session) :=
  match key with
  | .char 'q' _ => some (.quit, s)
  | .char 'e' true => some (.openEvent, s)
  | .char 'l' true => some (.proceed, { s with needsRedraw := true })
  -- with the control key before the same letters without it
  | .char 'n' true => some (.proceed, s.moveSelection 1)
  | .char 'p' true => some (.proceed, s.moveSelection (-1))
  | .char '/' _ => some (.proceed, s.beginFilter .rows)
  | .char 'c' _ => some (.proceed, s.openColumns)
  | .char 'p' _ => some (.proceed, s.openParsers)
  | .char 't' _ => some (.proceed, s.openSources)
  | .char 'm' _ =>
    let (request, s) := s.toggleMode
    some (.load request, s)
  | .char 'r' _ =>
    let (request, s) := s.requestLoad
    some (.load request, s)
  | .char 'E' _ => some (.proceed, s.exportTable)
  | _ => none

/-- Gives a pane the whole screen, or takes it back. -/
def toggleZoom (s : Session) (pane : Pane) : Session :=
  { s with zoom := if s.zoom = some pane then none else some pane }

def listKey (s : Session) : Key → Session
  | .down | .char 'j' _ => s.moveSelection 1
  | .up | .char 'k' _ => s.moveSelection (-1)
  | .left | .char 'h' _ => { s with shift := s.shift - s.shiftStep }.clampShift
  | .char 'l' _ => { s with shift := s.shift + s.shiftStep }.clampShift
  | .char '0' _ => { s with shift := 0 }
  | .char '$' _ => { s with shift := s.lastShift }
  | .char 'g' _ => s.selectFirst
  | .char 'G' _ => s.selectLast
  | .char 'd' true => s.pageDown
  | .char 'u' true => s.pageUp
  | .char 'z' _ => s.toggleZoom .list
  | .enter | .tab | .right => { s with focus := .detail }
  | _ => s

def detailKey (s : Session) : Key → Session
  | .down | .char 'j' _ => s.scrollDown 1
  | .up | .char 'k' _ => s.scrollUp 1
  | .char 'd' true => s.scrollDown (halfPage s.viewport.detailHeight)
  | .char 'u' true => s.scrollUp (halfPage s.viewport.detailHeight)
  | .char 'g' _ => s.resetScroll
  | .char 'G' _ => s.scrollDown farDown
  | .char 'z' _ => s.toggleZoom .detail
  | .tab | .escape | .left => { s with focus := .list }
  | _ => s

def normalKey (s : Session) (key : Key) : Action × Session :=
  match key with
  | .char '?' _ => (.proceed, { s with showsHelp := !s.showsHelp })
  | key =>
    -- while help shows, it takes all other keys
    if s.showsHelp then
      match key with
      | .escape => (.proceed, { s with showsHelp := false })
      | .char 'q' _ => (.quit, s)
      | _ => (.proceed, s)
    else
      match s.commonKey? key with
      | some outcome => outcome
      | none =>
        match s.focus with
        | .list => (.proceed, s.listKey key)
        | .detail => (.proceed, s.detailKey key)

/-- What a key does. -/
def press (s : Session) (key : Key) : Action × Session :=
  if key = .char 'c' true then (.quit, s)
  else
    -- where text is typed, no letter is a command
    match s.input with
    | .filter _ | .parserTest _ => (.proceed, s.typeKey key)
    | .columns => s.columnKey key
    | .parsers => s.parserKey key
    | .sources => s.sourceKey key
    | .normal => s.normalKey key

end Session

end TraceViewer
