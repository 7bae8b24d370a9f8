/-!
The tokens of the snippet language. A token carries the byte offset at which it starts.
-/

namespace TraceViewer.Snippet

/-- Punctuation and operators. -/
inductive Punct where
  | strictEq | strictNe | arrow | looseEq | looseNe | lessEq | greaterEq | andAnd | orOr
  | nullish | optionalDot | plusPlus | minusMinus | plusAssign | minusAssign | timesAssign
  | divideAssign | remainderAssign | parenOpen | parenClose | bracketOpen | bracketClose
  | braceOpen | braceClose | comma | semicolon | dot | question | colon | less | greater | bang
  | plus | minus | times | divide | percent | assign
  deriving Repr, DecidableEq

namespace Punct

def spelling : Punct → String
  | .strictEq => "===" | .strictNe => "!==" | .arrow => "=>" | .looseEq => "=="
  | .looseNe => "!=" | .lessEq => "<=" | .greaterEq => ">=" | .andAnd => "&&" | .orOr => "||"
  | .nullish => "??" | .optionalDot => "?." | .plusPlus => "++" | .minusMinus => "--"
  | .plusAssign => "+=" | .minusAssign => "-=" | .timesAssign => "*=" | .divideAssign => "/="
  | .remainderAssign => "%=" | .parenOpen => "(" | .parenClose => ")" | .bracketOpen => "["
  | .bracketClose => "]" | .braceOpen => "\x7b" | .braceClose => "\x7d" | .comma => ","
  | .semicolon => ";" | .dot => "." | .question => "?" | .colon => ":" | .less => "<"
  | .greater => ">" | .bang => "!" | .plus => "+" | .minus => "-" | .times => "*"
  | .divide => "/" | .percent => "%" | .assign => "="

/-- All punctuation, a longer spelling before each one that it begins with. -/
def all : List Punct :=
  [.strictEq, .strictNe, .arrow, .looseEq, .looseNe, .lessEq, .greaterEq, .andAnd, .orOr,
    .nullish, .optionalDot, .plusPlus, .minusMinus, .plusAssign, .minusAssign, .timesAssign,
    .divideAssign, .remainderAssign, .parenOpen, .parenClose, .bracketOpen, .bracketClose,
    .braceOpen, .braceClose, .comma, .semicolon, .dot, .question, .colon, .less, .greater, .bang,
    .plus, .minus, .times, .divide, .percent, .assign]

theorem mem_all (p : Punct) : p ∈ all := by cases p <;> decide

end Punct

/-- A substitution of a template: where its source starts and the source itself. -/
structure Hole where
  offset : Nat
  source : String
  deriving Repr, DecidableEq

/-- What a token is, apart from its place. A template has one text part more than holes. -/
inductive Lexeme where
  | number (value : Float)
  | text (value : String)
  | name (spelling : String)
  | pattern (body flags : String)
  | template (parts : List String) (holes : List Hole)
  | punct (p : Punct)
  | finish

structure Token where
  lexeme : Lexeme
  offset : Nat

/-- The same token at an offset that is larger by `shift`. -/
def Token.shifted (shift : Nat) (t : Token) : Token := ⟨t.lexeme, t.offset + shift⟩

end TraceViewer.Snippet
