import TraceViewer.Snippet.Token
import TraceViewer.Number.Fixed
import TraceViewer.Text.Quoted

/-!
What can go wrong with a snippet: its source may not be well formed, and running it may fail or
meet a limit. Each cause is a constructor; the wording is in the functions `message`.
-/

namespace TraceViewer.Snippet

/-- The deepest nesting of a source text that is accepted. -/
def maxSourceNesting : Nat := 128

/-- What the reader of a source text was looking for. -/
inductive Wanted where
  | punct (p : Punct)
  | endOfInput
  | identifier
  | assignmentTarget
  | updateTarget
  | noKeyword
  | expression
  | propertyKey
  | propertyName
  deriving Repr, DecidableEq

def Wanted.message : Wanted → String
  | .punct p => "expected \x60" ++ p.spelling ++ "\x60"
  | .endOfInput => "expected end of input"
  | .identifier => "expected an identifier"
  | .assignmentTarget => "invalid assignment target"
  | .updateTarget => "invalid update target"
  | .noKeyword => "unexpected keyword"
  | .expression => "expected an expression"
  | .propertyKey => "expected a property key"
  | .propertyName => "expected a property name"

/-- How a message names a token that was found. -/
def Lexeme.description : Lexeme → String
  | .number value => "number " ++ Number.plainText value
  | .text value => "string " ++ Text.quoted value
  | .name spelling => "\x60" ++ spelling ++ "\x60"
  | .pattern body _ => "regex /" ++ body ++ "/"
  | .template _ _ => "template literal"
  | .punct p => "\x60" ++ p.spelling ++ "\x60"
  | .finish => "end of input"

/-- Why a source text is not well formed. -/
inductive SourceFault where
  | unterminatedComment
  | unterminatedString
  | unterminatedTemplate
  | unterminatedPattern
  | badHexLiteral
  | badNumberLiteral
  | badUnicodeEscape
  | unexpectedChar (c : Char)
  | unsupportedFlag (c : Char)
  | badPattern (body : String)
  | tooDeep
  | unexpected (wanted : Wanted) (found : Lexeme)
  | stalled

/-- Stands in messages for the reason why a text is no regular expression. -/
def patternReason : String := "<regex error>"

def badPatternText (body : String) : String :=
  "invalid regular expression /" ++ body ++ "/: " ++ patternReason

def SourceFault.message : SourceFault → String
  | .unterminatedComment => "unterminated comment"
  | .unterminatedString => "unterminated string"
  | .unterminatedTemplate => "unterminated template literal"
  | .unterminatedPattern => "unterminated regex literal"
  | .badHexLiteral => "invalid hex literal"
  | .badNumberLiteral => "invalid number literal"
  | .badUnicodeEscape => "bad \\u escape"
  | .unexpectedChar c => "unexpected character " ++ Text.quotedChar c
  | .unsupportedFlag c => "unsupported regex flag " ++ Text.quotedChar c
  | .badPattern body => badPatternText body
  | .tooDeep => "nesting deeper than " ++ Number.natText maxSourceNesting ++ " levels"
  | .unexpected wanted found => wanted.message ++ ", found " ++ found.description
  | .stalled => "no progress"

/-- An operation on a value that it is not made for. -/
inductive TypeFault where
  | notFunction (what : String)
  | noProperties (kind name : String)
  | cannotPush (name : String)
  | notIterable (kind : String)
  | emptyReduce
  | badPattern (body : String)
  deriving Repr, DecidableEq

def TypeFault.message : TypeFault → String
  | .notFunction what => what ++ " is not a function"
  | .noProperties kind name => "cannot read properties of " ++ kind ++ " (reading '" ++ name ++ "')"
  | .cannotPush name => "cannot push to " ++ name
  | .notIterable kind => kind ++ " is not iterable"
  | .emptyReduce => "reduce of empty array with no initial value"
  | .badPattern body => badPatternText body

inductive Error where
  | badSource (offset : Nat) (fault : SourceFault)
  | unbound (name : String)
  | mistyped (fault : TypeFault)
  | budgetSpent (steps : Nat)
  | tooManyCalls (depth : Nat)
  | tooNested (levels : Nat)

def Error.message : Error → String
  | .badSource offset fault =>
    "syntax error at offset " ++ Number.natText offset ++ ": " ++ fault.message
  | .unbound name => name ++ " is not defined"
  | .mistyped fault => "type error: " ++ fault.message
  | .budgetSpent steps => "evaluation budget of " ++ Number.natText steps ++ " steps exhausted"
  | .tooManyCalls depth => "maximum call depth of " ++ Number.natText depth ++ " exceeded"
  | .tooNested levels => "evaluation nested deeper than " ++ Number.natText levels ++ " levels"

end TraceViewer.Snippet
