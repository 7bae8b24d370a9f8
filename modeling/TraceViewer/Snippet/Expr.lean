import TraceViewer.Regex.Library
import TraceViewer.Snippet.Error

/-!
The syntax trees of the snippet language, and the regular expressions that stand in them as
literals: a body and the letters of its flags.
-/

namespace TraceViewer.Snippet

/-! ## Regular expression literals -/

/-- The letters that set flags of a pattern, which are "i", "m" and "s"; "g" asks for all matches,
"u" and "y" are accepted and change nothing, and any other letter is a fault. -/
def patternFlags : List Char → Except SourceFault (List Char)
  | [] => .ok []
  | c :: rest =>
    if c == 'i' || c == 'm' || c == 's' then (patternFlags rest).map (c :: ·)
    else if c == 'g' || c == 'u' || c == 'y' then patternFlags rest
    else .error (.unsupportedFlag c)

/-- Prepares a body with its flags for searching. -/
def searcherOf (library : Regex.Library) (body flags : String) :
    Except SourceFault Regex.Searcher :=
  match patternFlags flags.toList with
  | .error fault => .error fault
  | .ok letters =>
    let source := if letters.isEmpty then body else "(?" ++ String.ofList letters ++ ")" ++ body
    match library.compile source with
    | .ok searcher => .ok searcher
    | .error _ => .error (.badPattern body)

/-- A regular expression literal. Its number tells the literals of one source text apart. -/
structure PatternLiteral where
  body : String
  flags : String
  searcher : Regex.Searcher
  number : Nat

/-- Whether all matches are wanted, not only the first. -/
def PatternLiteral.isGlobal (p : PatternLiteral) : Bool := p.flags.toList.contains 'g'

/-! ## Trees -/

inductive UnaryOp where
  | not
  | negate
  | plus
  | kindOf
  deriving Repr, DecidableEq

inductive BinaryOp where
  | add | sub | mul | div | rem
  | less | lessEq | greater | greaterEq
  | looseEq | looseNe | strictEq | strictNe
  deriving Repr, DecidableEq

inductive LogicalOp where
  | and
  | or
  | nullish
  deriving Repr, DecidableEq

mutual

/-- Expressions. In a chain of members, indices and calls `guarded` marks a link that is skipped,
with the rest of the chain, when its target is null or undefined. -/
inductive Expr where
  | number (value : Float)
  | text (value : String)
  | bool (value : Bool)
  | null
  | undefined
  | pattern (literal : PatternLiteral)
  | ident (name : String)
  | array (items : List Expr)
  | object (entries : List (String × Expr))
  | unary (op : UnaryOp) (operand : Expr)
  | binary (op : BinaryOp) (left right : Expr)
  | logical (op : LogicalOp) (left right : Expr)
  | cond (test yes no : Expr)
  | assign (name : String) (op : Option BinaryOp) (value : Expr)
  | update (name : String) (increment before : Bool)
  | member (object : Expr) (property : String) (guarded : Bool)
  | index (object key : Expr) (guarded : Bool)
  | call (callee : Expr) (args : List Expr) (guarded : Bool)
  | template (parts : List String) (holes : List Expr)
  | function (f : Function)

/-- Functions. Those written with an arrow have no name. -/
inductive Function where
  | mk (name : Option String) (params : List String) (body : Body)

/-- The body of a function: one expression or a block. -/
inductive Body where
  | expr (e : Expr)
  | block (statements : List Stmt)

inductive Stmt where
  | declare (bindings : List (String × Option Expr))
  | function (f : Function)
  | cond (test : Expr) (yes : Stmt) (no : Option Stmt)
  | loop (test : Expr) (body : Stmt)
  | countLoop (init : Option Stmt) (test update : Option Expr) (body : Stmt)
  | eachLoop (name : String) (items : Expr) (body : Stmt)
  | leave
  | continue
  | return (value : Option Expr)
  | block (body : List Stmt)
  | expr (e : Expr)
  | empty

end

instance : Inhabited Expr := ⟨.undefined⟩

instance : Inhabited Stmt := ⟨.empty⟩

namespace Function

def name : Function → Option String
  | .mk name _ _ => name

def params : Function → List String
  | .mk _ params _ => params

def body : Function → Body
  | .mk _ _ body => body

end Function

/-- The name of the first function that a sequence of statements declares. -/
def firstFunctionName : List Stmt → Option String
  | [] => none
  | .function f :: rest => f.name <|> firstFunctionName rest
  | _ :: rest => firstFunctionName rest

end TraceViewer.Snippet
