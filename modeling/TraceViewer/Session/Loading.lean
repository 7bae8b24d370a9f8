import TraceViewer.Session.Rows

/-!
Requests to load and their responses. Only the response to the newest request counts, whatever the
order in which responses arrive.
-/

namespace TraceViewer.Session

/-- Makes a new request, which no response to an earlier one can meet. -/
def requestLoad (s : Session) : LoadRequest × Session :=
  let generation := s.generation + 1
  (⟨generation, s.mode, s.selectedSource⟩, { s with generation, isLoading := true })

/-- Notes summaries of sources in their places. -/
def noteSummaries (summaries : List (Option SourceSummary)) (loaded : List (Nat × SourceSummary)) :
    List (Option SourceSummary) :=
  loaded.foldl (fun summaries l => summaries.set l.1 (some l.2)) summaries

/-- What a notice tells of a loaded trace. -/
def loadedText (rowCount groupCount : Nat) : String :=
  "Loaded " ++ Number.natText rowCount ++ " events" ++
    if groupCount = 0 then "" else " from " ++ Number.natText groupCount ++ " uploads"

/-- Shows a loaded trace. -/
def showTrace (s : Session) (loaded : LoadedTrace) : Session :=
  let table := s.table.load loaded.columns loaded.trace.rows
  -- whatever was selected or shifted belonged to the old rows
  let s :=
    { s with
      summaries := noteSummaries s.summaries loaded.summaries
      traceName := loaded.trace.name
      groups := loaded.trace.groups
      columnList := s.columnList.selectFirst loaded.columns.length
      shift := 0
      table }
  s.selectFirst.inform (loadedText loaded.trace.rows.length loaded.trace.groups.length)

/-- Takes a response, and tells whether it was the one to the newest request. A failed load changes
nothing but the notice. -/
def applyLoad (s : Session) (response : LoadResponse) : Bool × Session :=
  if response.request.generation ≠ s.generation then (false, s)
  else
    -- a failed load answers the request as well
    let s := { s with isLoading := false }
    match response.outcome with
    | .ok loaded => (true, s.showTrace loaded)
    | .error fault => (true, s.complain ("Load failed: " ++ fault.message))

/-- The response to a request. -/
def respond (s : Session) (request : LoadRequest) : LoadResponse :=
  ⟨request, LoadedTrace.load s.files s.sources request.mode request.selected⟩

def toggleMode (s : Session) : LoadRequest × Session :=
  { s with mode := s.mode.toggled }.requestLoad

/-- Shows one source on its own. -/
def selectSource (s : Session) (position : Nat) : Option LoadRequest × Session :=
  if s.sources.length ≤ position then (none, s)
  else
    let (request, s) := { s with selectedSource := position, mode := .byUpload }.requestLoad
    (some request, s)

end TraceViewer.Session
