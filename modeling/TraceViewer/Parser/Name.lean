import TraceViewer.Text.Search

/-!
The names that a snippet's source text shows without being read as a program: the name it declares
for itself, by which a new parser is saved, and the name of the variable that its start assigns.
-/

namespace TraceViewer.Parser

/-- The characters of a detected name. -/
def isNameChar (c : Char) : Bool := c.isAlphanum || c == '_' || c == '$'

/-- The characters that may start the name of a variable. -/
def isNameStart (c : Char) : Bool := c.isAlpha || c == '_' || c == '$'

/-- What follows at least one blank. -/
def afterBlanks? (cs : List Char) : Option (List Char) :=
  match cs with
  | [] => none
  | c :: rest => if Text.isBlank c then some (Text.dropBlanks rest) else none

/-- What follows a word and the blanks after it. -/
def afterWord? (word : String) (cs : List Char) : Option (List Char) :=
  (Text.stripStart? word.toList cs).bind afterBlanks?

/-- What follows one of the words that declare variables and the blanks after it. -/
def afterDeclarator? (cs : List Char) : Option (List Char) :=
  afterWord? "const" cs <|> afterWord? "let" cs <|> afterWord? "var" cs

/-- A name with the first character after it and after any blanks, which must be `stop`. -/
def nameBefore? (stop : Char) (cs : List Char) : Option (List Char) :=
  let name := cs.takeWhile isNameChar
  let rest := Text.dropBlanks (cs.dropWhile isNameChar)
  if !name.isEmpty && rest.head? == some stop then some name else none

/-- The first result that some end of the text gives. -/
def firstInside? (read : List Char → Option (List Char)) : List Char → Option (List Char)
  | [] => read []
  | c :: cs =>
    match read (c :: cs) with
    | some found => some found
    | none => firstInside? read cs

/-- The name that a source text declares: the first one between the word "function" and an opening
parenthesis, else the first one between a declaring word and an equals sign. -/
def declaredName? (source : String) : Option String :=
  let cs := source.toList
  let ofFunction := firstInside? (fun cs => (afterWord? "function" cs).bind (nameBefore? '(')) cs
  let ofVariable := firstInside? (fun cs => (afterDeclarator? cs).bind (nameBefore? '=')) cs
  String.ofList <$> (ofFunction <|> ofVariable)

/-- The name of a variable at the start of a text that is given a value there: an equals sign
follows, but neither a comparison nor an arrow. -/
def assignedName? (cs : List Char) : Option (List Char) :=
  let name := cs.takeWhile isNameChar
  if !(cs.head?.any isNameStart) then none
  else
    match Text.dropBlanks (cs.dropWhile isNameChar) with
    | '=' :: rest => if rest.head? == some '>' || rest.head? == some '=' then none else some name
    | _ => none

/-- The name of the variable that a source text with an arrow starts by giving a value, with a
declaring word before it or not. -/
def boundName? (cs : List Char) : Option (List Char) :=
  (afterDeclarator? cs).bind assignedName? <|> assignedName? cs

end TraceViewer.Parser
