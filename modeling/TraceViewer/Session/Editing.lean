import TraceViewer.Session.Rows

/-!
Changing filters, columns and parsers, and exporting the table.
-/

namespace TraceViewer.Session

/-! ## Filters and columns -/

/-- Notes how many of the rows show. -/
def reportCounts (s : Session) : Session :=
  s.inform ("Showing " ++ Number.natText s.table.visibleCount ++ " of " ++
    Number.natText s.table.rowCount ++ " events")

/-- The text of a filter; empty when there is none. -/
def filterText (s : Session) : FilterTarget → String
  | .column name => (s.table.filterOf? name).getD ""
  | .rows => (s.table.rowFilter.map (·.text)).getD ""

/-- Opens the prompt for a filter, with the text that it has. -/
def beginFilter (s : Session) (target : FilterTarget) : Session :=
  { s with buffer := s.filterText target, input := .filter target }

/-- Sets the filter whose prompt is open to the text that was typed. -/
def submitFilter (s : Session) (target : FilterTarget) : Session :=
  let text := s.buffer
  let s := { s with buffer := "" }
  match target with
  | .column name =>
    let (table, registry) := s.table.setFilter name text s.registry
    { s with table, registry, input := .columns }.clampSelection.reportCounts
  | .rows =>
    match s.table.setRowFilter text s.registry with
    | (.ok (), table, registry) =>
      { s with table, registry, input := .normal }.clampSelection.reportCounts
    -- the prompt closes also when the text cannot be read, and the old filter stays
    | (.error fault, table, registry) =>
      { s with table, registry, input := .normal }.complain fault.message

def clearSelectedFilter (s : Session) : Session :=
  match s.selectedColumn? with
  | none => s
  | some column =>
    let (table, registry) := s.table.clearFilter column s.registry
    { s with table, registry }.clampSelection.reportCounts

def sortSelectedColumn (s : Session) : Session :=
  match s.selectedColumn? with
  | none => s
  | some column => { s with table := s.table.sort column }.selectFirst

/-- Moves the selected column, which stays selected. -/
def moveColumn (s : Session) (delta : Int) : Session :=
  match s.columnList.selected with
  | none => s
  | some position =>
    let (position, table) := s.table.moveColumn position delta
    { s with table, columnList := s.columnList.select (some position) }

/-! ## Parsers -/

/-- Evaluates all filters anew after parsers have changed. -/
def refilter (s : Session) : Session :=
  let (table, registry) := s.table.refilter s.registry
  { s with table, registry }.clampSelection

/-- How a notice names a parser. -/
def parserText (name : String) : String := "Parser \"" ++ name ++ "\""

/-- Saves a registered parser. -/
def persist (s : Session) (name source : String) : Session :=
  match s.store.upsert name source s.files s.clock with
  | (.ok _, store, files) => { s with store, files }.inform (parserText name ++ " saved")
  | (.error fault, store, files) =>
    { s with store, files }.complain
      (parserText name ++ " registered but not saved: " ++ fault.message)

/-- Registers and saves a source text under the name that it was opened under, or else under the
name that it declares. -/
def saveParser (s : Session) (source : String) (editing : Option String) : Session :=
  match editing <|> Parser.declaredName? source with
  | none => s.complain "No function name detected; declare a named function or binding"
  | some name =>
    match s.registry.register name source with
    | (.error fault, registry) => { s with registry }.complain fault.message
    | (.ok (), registry) =>
      -- filters may call the parser, so they run again before it is saved
      let s := { s with registry }.refilter
      let s :=
        match s.registry.names.findIdx? (· == name) with
        | some position => { s with parserList := s.parserList.select (some position) }
        | none => s
      s.persist name source

/-- Deletes the saved record of a parser that was removed. -/
def forget (s : Session) (name : String) : Session :=
  match s.store.idOf? name with
  | none => s.inform (parserText name ++ " deleted")
  | some id =>
    match s.store.delete id s.files s.clock with
    | (.ok _, store, files) => { s with store, files }.inform (parserText name ++ " deleted")
    | (.error fault, store, files) =>
      { s with store, files }.complain
        (parserText name ++ " removed but store failed: " ++ fault.message)

/-- Removes the selected parser, and selects the one that takes its place. -/
def deleteSelectedParser (s : Session) : Session :=
  match s.selectedParser? with
  | none => s
  | some name =>
    let (_, registry) := s.registry.remove name
    let s := { s with registry }.refilter
    -- the selection stays in place, or goes to the last parser that is left
    let count := s.registry.parsers.length
    let selected :=
      if count = 0 then none else some (min (s.parserList.selected.getD 0) (count - 1))
    { s with parserList := s.parserList.select selected }.forget name

/-- Tries a parser on a text. -/
def testParser (s : Session) (name input : String) : Session :=
  let (outcome, registry) := s.registry.test name input
  { s with registry, testResult := some (outcome.mapError (·.message)) }

/-! ## Exporting -/

/-- Names an exported table that has no name. -/
def unnamedTrace : String := "trace"

def exportTable (s : Session) : Session :=
  let hint := if s.traceName.isEmpty then unnamedTrace else s.traceName
  match s.table.exportCsv s.exportFolder hint s.files s.clock with
  | .ok (path, files) => { s with files }.inform ("Exported to " ++ path)
  | .error fault => s.complain ("Export failed: " ++ fault.message)

end TraceViewer.Session
