import TraceViewer.Session.Key

/-!
Editing a text outside of the session: what an editor opens with where a key asks for one, and what
is done with the text that it leaves.
-/

namespace TraceViewer

/-- A parser to start from, with a comment for each of its steps. -/
def parserTemplate : String :=
  Text.join "\n"
    ["function tensorShape(x) \x7b",
     "  // Extract the content between the square brackets",
     "  const match = x.match(/Tensor\\[(.*?)\\]/);",
     "  if (!match) return null;",
     "",
     "  // Split the content to get the shape part (before the first '|')",
     "  const parts = match[1].split('|');",
     "  const shapeStr = parts[0];",
     "",
     "  // Split the shape string by 'x' and convert to integers",
     "  return shapeStr.split('x').map(dim => parseInt(dim, 10));",
     "\x7d",
     ""]

/-- A new parser opens with the template, a parser with its source and an event with its fields. -/
def Session.editorText? (s : Session) : Action → Option String
  | .newParser => some parserTemplate
  | .editParser name => some (((s.registry.find? name).map (·.source)).getD "")
  | .openEvent => s.currentRow?.map fun row => (Json.object row).pretty
  | .proceed | .quit | .load _ => none

/-- The source text that is taken from an editor: none where the text is blank, or where it is still
that of a parser with a name. -/
def editedSource? (name initial edited : String) : Option String :=
  let kept := Text.trim edited
  if kept.isEmpty || (kept == Text.trim initial && !name.isEmpty) then none else some edited

/-- Saves the parser that was edited. Changes to the text of an event are lost. -/
def Session.closeEditor (s : Session) (action : Action) (edited : String) : Session :=
  let initial := (s.editorText? action).getD ""
  match action with
  | .newParser => (editedSource? "" initial edited).elim s (s.saveParser · none)
  | .editParser name => (editedSource? name initial edited).elim s (s.saveParser · (some name))
  | .proceed | .quit | .load _ | .openEvent => s

end TraceViewer
