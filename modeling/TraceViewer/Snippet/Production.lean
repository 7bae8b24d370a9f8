import TraceViewer.Regex.Engine
import TraceViewer.Snippet.Expr
import TraceViewer.Snippet.Lexer
import TraceViewer.Snippet.Numeral

/-!
From tokens to syntax trees. Statements, assignments and unary expressions each take one level of
nesting, and so does each link of a chain of operators, members or calls; a source text that would
nest deeper than `maxSourceNesting` is refused. The productions of one level are functions of the
productions one level further in, so the levels bound the recursion.
-/

namespace TraceViewer.Snippet

/-- The tokens that remain, how deep the current production is nested, and how many regular
expressions were read. The last of the tokens is the end of the input and is never taken. -/
structure Cursor where
  tokens : List Token
  depth : Nat := 0
  patterns : Nat := 0

namespace Cursor

def lexeme (c : Cursor) : Lexeme :=
  match c.tokens with
  | t :: _ => t.lexeme
  | [] => .finish

/-- The offset of the next token. -/
def offset (c : Cursor) : Nat :=
  match c.tokens with
  | t :: _ => t.offset
  | [] => 0

/-- The lexeme `n` tokens ahead. -/
def ahead (c : Cursor) (n : Nat) : Lexeme :=
  match c.tokens[n]? with
  | some t => t.lexeme
  | none => .finish

/-- Takes the next token, unless it is the last one. -/
def advance (c : Cursor) : Cursor :=
  match c.tokens with
  | _ :: next :: rest => { c with tokens := next :: rest }
  | _ => c

def atPunct (c : Cursor) (p : Punct) : Bool :=
  match c.lexeme with
  | .punct q => q == p
  | _ => false

def atWord (c : Cursor) (word : String) : Bool :=
  match c.lexeme with
  | .name w => w == word
  | _ => false

def atEnd (c : Cursor) : Bool :=
  match c.lexeme with
  | .finish => true
  | _ => false

/-- The error that something else was wanted than the next token. -/
def unexpected (c : Cursor) (wanted : Wanted) : Error :=
  .badSource c.offset (.unexpected wanted c.lexeme)

end Cursor

/-- Reads a piece of a program from the tokens at the cursor. -/
abbrev Production := EStateM Error Cursor

/-- The words that are no identifiers. -/
def reservedWords : List String :=
  ["function", "return", "const", "let", "var", "if", "else", "for", "while", "break", "continue",
    "true", "false", "null", "undefined", "typeof"]

def isReserved (word : String) : Bool := reservedWords.contains word

namespace Production

/-- Fails with what was wanted instead of the next token. -/
def fail (wanted : Wanted) : Production α := do throw ((← get).unexpected wanted)

def advance : Production Unit := modify Cursor.advance

/-- Takes a punctuation if it comes next, and tells whether it did. -/
def eat (p : Punct) : Production Bool := do
  if (← get).atPunct p then
    advance
    return true
  else return false

def eatWord (word : String) : Production Bool := do
  if (← get).atWord word then
    advance
    return true
  else return false

def expect (p : Punct) : Production Unit := do
  if !(← eat p) then fail (.punct p)

def expectEnd : Production Unit := do
  if !(← get).atEnd then fail .endOfInput

/-- An identifier that is not reserved. -/
def bindingName : Production String := do
  match (← get).lexeme with
  | .name name =>
    if isReserved name then fail .identifier
    else
      advance
      return name
  | _ => fail .identifier

/-- Goes one level deeper. -/
def descend : Production Unit := do
  modify fun c => { c with depth := c.depth + 1 }
  let c ← get
  if maxSourceNesting < c.depth then throw (.badSource c.offset .tooDeep)

/-- Comes back up some levels. -/
def ascend (levels : Nat) : Production Unit := modify fun c => { c with depth := c.depth - levels }

/-- Runs a production one level deeper. -/
def nested (p : Production α) : Production α := do
  descend
  let result ← p
  ascend 1
  return result

/-- The number of tokens left, which bounds the rounds of every loop. -/
def bound : Production Nat := do return (← get).tokens.length

/-- The error of a loop that takes more rounds than there are tokens. -/
def stall : Production α := do throw (.badSource (← get).offset .stalled)

/-! ## Lists -/

/-- Names up to and including the closing parenthesis. -/
def paramsFrom (acc : List String) : Nat → Production (List String)
  | 0 => stall
  | rounds + 1 => do
    let acc := (← bindingName) :: acc
    if ← eat .parenClose then return acc.reverse
    else
      expect .comma
      paramsFrom acc rounds

def params : Production (List String) := do
  if ← eat .parenClose then return []
  else paramsFrom [] (← bound)

/-- Whether names, a closing parenthesis and an arrow follow. -/
def arrowFollows : List Token → Bool
  | ⟨.name _, _⟩ :: ⟨.punct .comma, _⟩ :: rest => arrowFollows rest
  | ⟨.name _, _⟩ :: ⟨.punct .parenClose, _⟩ :: ⟨.punct .arrow, _⟩ :: _ => true
  | _ => false

/-- Whether the parameters of an arrow function start at an opening parenthesis. -/
def arrowStarts : List Token → Bool
  | _ :: ⟨.punct .parenClose, _⟩ :: ⟨.punct .arrow, _⟩ :: _ => true
  | _ :: rest => arrowFollows rest
  | [] => false

/-! ## Levels -/

/-- The productions that take a level of nesting. -/
structure Level where
  statement : Production Stmt
  assignment : Production Expr
  unary : Production Expr

variable (inner : Level)

/-- Statements up to and including the closing brace. -/
def blockFrom (acc : List Stmt) : Nat → Production (List Stmt)
  | 0 => stall
  | rounds + 1 => do
    if ← eat .braceClose then return acc.reverse
    else if (← get).atEnd then fail (.punct .braceClose)
    else blockFrom ((← inner.statement) :: acc) rounds

def block : Production (List Stmt) := do
  expect .braceOpen
  blockFrom inner [] (← bound)

/-- A function after its keyword. -/
def functionRest (needsName : Bool) : Production Function := do
  let isNamed :=
    match (← get).lexeme with
    | .name _ => true
    | _ => needsName
  -- a reserved word here is refused as a name rather than taken for a missing one
  let name ← if isNamed then some <$> bindingName else pure none
  expect .parenOpen
  let params ← params
  return .mk name params (.block (← block inner))

/-- Arguments up to and including the closing parenthesis. -/
def argumentsFrom (acc : List Expr) : Nat → Production (List Expr)
  | 0 => stall
  | rounds + 1 => do
    let acc := (← inner.assignment) :: acc
    if ← eat .parenClose then return acc.reverse
    else
      expect .comma
      argumentsFrom acc rounds

def arguments : Production (List Expr) := do
  if ← eat .parenClose then return []
  else argumentsFrom inner [] (← bound)

/-- Items of an array up to and including the closing bracket; a comma may follow the last. -/
def itemsFrom (acc : List Expr) : Nat → Production (List Expr)
  | 0 => stall
  | rounds + 1 => do
    if ← eat .bracketClose then return acc.reverse
    else
      let acc := (← inner.assignment) :: acc
      if !(← get).atPunct .bracketClose then expect .comma
      itemsFrom acc rounds

/-- The key of an entry: a name, a text or a number. -/
def entryKey : Production String := do
  let lexeme := (← get).lexeme
  advance
  match lexeme with
  | .name name => return name
  | .text text => return text
  | .number value => return numberText value
  | _ => fail .propertyKey

/-- Entries of an object up to and including the closing brace. A key without a value stands for
the variable of that name. -/
def entriesFrom (acc : List (String × Expr)) : Nat → Production (List (String × Expr))
  | 0 => stall
  | rounds + 1 => do
    if ← eat .braceClose then return acc.reverse
    else
      let key ← entryKey
      let value ← if ← eat .colon then inner.assignment else pure (.ident key)
      if !(← get).atPunct .braceClose then expect .comma
      entriesFrom ((key, value) :: acc) rounds

/-- The same error at an offset that is larger by `shift`. -/
def shiftError (shift : Nat) : Error → Error
  | .badSource offset fault => .badSource (offset + shift) fault
  | e => e

/-- The expression of a template's hole, read from its own tokens at the current nesting. -/
def hole (h : Hole) : Production Expr := do
  match tokenize h.source with
  | .error e => throw (shiftError h.offset e)
  | .ok tokens =>
    let outer ← get
    -- depth and patterns go on from the template, and only its tokens come back afterwards
    set { outer with tokens := tokens.map (Token.shifted h.offset) }
    let e ← inner.assignment
    expectEnd
    modify fun c => { c with tokens := outer.tokens }
    return e

def holes : List Hole → Production (List Expr)
  | [] => return []
  | h :: rest => do
    let e ← hole inner h
    return e :: (← holes rest)

/-- A regular expression literal, which gets the next number. -/
def pattern (offset : Nat) (body flags : String) : Production Expr := do
  match searcherOf Regex.engine body flags with
  | .error fault => throw (.badSource offset fault)
  | .ok searcher =>
    let number := (← get).patterns
    modify fun c => { c with patterns := number + 1 }
    return .pattern ⟨body, flags, searcher, number⟩

/-- An expression without operators or links. -/
def primary : Production Expr := do
  let start ← get
  advance
  match start.lexeme with
  | .number value => return .number value
  | .text value => return .text value
  | .pattern body flags => pattern start.offset body flags
  | .name word =>
    if word == "true" then return .bool true
    else if word == "false" then return .bool false
    else if word == "null" then return .null
    else if word == "undefined" then return .undefined
    else if word == "function" then return .function (← functionRest inner false)
    else if isReserved word then throw (start.unexpected .noKeyword)
    else return .ident word
  | .template parts hs => return .template parts (← holes inner hs)
  | .punct .parenOpen =>
    let e ← inner.assignment
    expect .parenClose
    return e
  | .punct .bracketOpen => return .array (← itemsFrom inner [] (← bound))
  | .punct .braceOpen => return .object (← entriesFrom inner [] (← bound))
  | _ => throw (start.unexpected .expression)

/-- The links of a chain after its head. Each link takes a level until the chain ends. -/
def linksFrom (links : Nat) (head : Expr) : Nat → Production Expr
  | 0 => stall
  | rounds + 1 => do
    let guarded ← eat .optionalDot
    if ← eat .bracketOpen then
      descend
      let key ← inner.assignment
      expect .bracketClose
      linksFrom (links + 1) (.index head key guarded) rounds
    else if ← eat .parenOpen then
      descend
      let args ← arguments inner
      linksFrom (links + 1) (.call head args guarded) rounds
    else
      -- a guard without bracket or parenthesis stands in place of the dot
      let isMember ← if guarded then pure true else eat .dot
      if isMember then
        descend
        let lexeme := (← get).lexeme
        advance
        match lexeme with
        | .name property => linksFrom (links + 1) (.member head property guarded) rounds
        | _ => fail .propertyName
      else
        ascend links
        return head

/-- A chain, with an increment or a decrement behind it or not. -/
def postfixed : Production Expr := do
  let head ← primary inner
  let e ← linksFrom inner 0 head (← bound)
  let c ← get
  if c.atPunct .plusPlus || c.atPunct .minusMinus then
    match e with
    | .ident name =>
      advance
      return .update name (c.atPunct .plusPlus) false
    | _ => fail .updateTarget
  else return e

/-- The operator in front of an operand. -/
def unaryOp? : Lexeme → Option UnaryOp
  | .punct .bang => some .not
  | .punct .minus => some .negate
  | .punct .plus => some .plus
  | .name "typeof" => some .kindOf
  | _ => none

def unaryLevel : Production Expr := do
  let c ← get
  if c.atPunct .plusPlus || c.atPunct .minusMinus then
    advance
    match ← inner.unary with
    | .ident name => return .update name (c.atPunct .plusPlus) true
    | _ => fail .updateTarget
  else
    match unaryOp? c.lexeme with
    | some op =>
      advance
      return .unary op (← inner.unary)
    | none => postfixed inner

/-- The links of a chain of operators of one rank, grouped to the left. -/
def operatorsFrom (op? : Punct → Option α) (join : α → Expr → Expr → Expr)
    (operand : Production Expr) (links : Nat) (left : Expr) : Nat → Production Expr
  | 0 => stall
  | rounds + 1 => do
    let op :=
      match (← get).lexeme with
      | .punct p => op? p
      | _ => none
    match op with
    | none =>
      -- the levels of all links are given back together, at the end of the chain
      ascend links
      return left
    | some op =>
      advance
      descend
      let right ← operand
      operatorsFrom op? join operand (links + 1) (join op left right) rounds

def operators (op? : Punct → Option α) (join : α → Expr → Expr → Expr) (operand : Production Expr) :
    Production Expr := do
  let left ← operand
  operatorsFrom op? join operand 0 left (← bound)

def multiplicativeOp? : Punct → Option BinaryOp
  | .times => some .mul
  | .divide => some .div
  | .percent => some .rem
  | _ => none

def additiveOp? : Punct → Option BinaryOp
  | .plus => some .add
  | .minus => some .sub
  | _ => none

def relationalOp? : Punct → Option BinaryOp
  | .lessEq => some .lessEq
  | .greaterEq => some .greaterEq
  | .less => some .less
  | .greater => some .greater
  | _ => none

def equalityOp? : Punct → Option BinaryOp
  | .strictEq => some .strictEq
  | .strictNe => some .strictNe
  | .looseEq => some .looseEq
  | .looseNe => some .looseNe
  | _ => none

def andOp? : Punct → Option LogicalOp
  | .andAnd => some .and
  | _ => none

def orOp? : Punct → Option LogicalOp
  | .orOr => some .or
  | .nullish => some .nullish
  | _ => none

/-- The ranks of the operators from tightest to loosest. -/
def multiplicative : Production Expr := operators multiplicativeOp? .binary inner.unary

def additive : Production Expr := operators additiveOp? .binary (multiplicative inner)

def relational : Production Expr := operators relationalOp? .binary (additive inner)

def equality : Production Expr := operators equalityOp? .binary (relational inner)

def conjunction : Production Expr := operators andOp? .logical (equality inner)

def disjunction : Production Expr := operators orOp? .logical (conjunction inner)

def conditional : Production Expr := do
  let test ← disjunction inner
  if ← eat .question then
    let yes ← inner.assignment
    expect .colon
    return .cond test yes (← inner.assignment)
  else return test

/-- The operator of an assignment: none in it for a plain one. -/
def assignmentOp? : Punct → Option (Option BinaryOp)
  | .assign => some none
  | .plusAssign => some (some .add)
  | .minusAssign => some (some .sub)
  | .timesAssign => some (some .mul)
  | .divideAssign => some (some .div)
  | .remainderAssign => some (some .rem)
  | _ => none

/-- The parameters of an arrow function up to and including the arrow, if one starts here. -/
def arrowParams? : Production (Option (List String)) := do
  let c ← get
  match c.lexeme, c.ahead 1 with
  | .name name, .punct .arrow =>
    if isReserved name then return none
    else
      advance
      advance
      return some [name]
  | .punct .parenOpen, _ =>
    if arrowStarts c.tokens then
      advance
      let names ← params
      expect .arrow
      return some names
    else return none
  | _, _ => return none

def assignmentLevel : Production Expr := do
  match ← arrowParams? with
  | some names =>
    let body ←
      if (← get).atPunct .braceOpen then Body.block <$> block inner
      else Body.expr <$> inner.assignment
    return .function (.mk none names body)
  | none =>
    let target ← conditional inner
    let op :=
      match (← get).lexeme with
      | .punct p => assignmentOp? p
      | _ => none
    match op with
    | none => return target
    | some op =>
      -- that the target is a name shows only after it was read as an expression
      match target with
      | .ident name =>
        advance
        return .assign name op (← inner.assignment)
      | _ => fail .assignmentTarget

/-! ## Statements -/

def atDeclaration (c : Cursor) : Bool := c.atWord "const" || c.atWord "let" || c.atWord "var"

/-- Bindings after the keyword of a declaration. -/
def bindingsFrom (acc : List (String × Option Expr)) :
    Nat → Production (List (String × Option Expr))
  | 0 => stall
  | rounds + 1 => do
    let name ← bindingName
    let value ← if ← eat .assign then some <$> inner.assignment else pure none
    let acc := (name, value) :: acc
    if ← eat .comma then bindingsFrom acc rounds else return acc.reverse

def declaration : Production Stmt := do return .declare (← bindingsFrom inner [] (← bound))

/-- Whether the head of a loop goes through the items of a value. -/
def atEachLoop (c : Cursor) : Bool :=
  atDeclaration c &&
    -- two tokens ahead, for `of` is no reserved word and may be a variable
    match c.ahead 1, c.ahead 2 with
    | .name _, .name word => word == "of"
    | _, _ => false

/-- An expression, unless the given punctuation comes next. -/
def unlessAt (p : Punct) : Production (Option Expr) := do
  if (← get).atPunct p then return none else some <$> inner.assignment

/-- What a counting loop starts with. -/
def loopInit : Production (Option Stmt) := do
  let c ← get
  if c.atPunct .semicolon then return none
  else if atDeclaration c then
    advance
    some <$> declaration inner
  else return some (.expr (← inner.assignment))

/-- A loop after the word "for". -/
def forStatement : Production Stmt := do
  expect .parenOpen
  if atEachLoop (← get) then
    advance
    let name ← bindingName
    advance
    let items ← inner.assignment
    expect .parenClose
    return .eachLoop name items (← inner.statement)
  else
    let init ← loopInit inner
    expect .semicolon
    let test ← unlessAt inner .semicolon
    expect .semicolon
    let update ← unlessAt inner .parenClose
    expect .parenClose
    return .countLoop init test update (← inner.statement)

/-- The condition of a statement, in parentheses. -/
def condition : Production Expr := do
  expect .parenOpen
  let test ← inner.assignment
  expect .parenClose
  return test

def skipSemicolon : Production Unit := do
  let _ ← eat .semicolon

def statementLevel : Production Stmt := do
  if ← eat .semicolon then return .empty
  let c ← get
  if c.atPunct .braceOpen then return .block (← block inner)
  if ← eatWord "function" then return .function (← functionRest inner true)
  if atDeclaration c then
    advance
    let declared ← declaration inner
    skipSemicolon
    return declared
  if ← eatWord "if" then
    let test ← condition inner
    let yes ← inner.statement
    let no ← if ← eatWord "else" then some <$> inner.statement else pure none
    return .cond test yes no
  if ← eatWord "while" then
    let test ← condition inner
    return .loop test (← inner.statement)
  if ← eatWord "for" then forStatement inner
  else if ← eatWord "break" then
    skipSemicolon
    return .leave
  else if ← eatWord "continue" then
    skipSemicolon
    return .continue
  else if ← eatWord "return" then
    let c ← get
    let value ←
      -- what follows on the next line still belongs to the return
      if c.atPunct .semicolon || c.atPunct .braceClose || c.atEnd then pure none
      else some <$> inner.assignment
    skipSemicolon
    return .return value
  else
    let e ← inner.assignment
    skipSemicolon
    return .expr e

/-- The productions with a number of levels left. Without any, nothing can be read. -/
def level : Nat → Level
  | 0 =>
    let refuse {α : Type} : Production α := do throw (.badSource (← get).offset .tooDeep)
    ⟨refuse, refuse, refuse⟩
  | n + 1 =>
    let inner := level n
    ⟨nested (statementLevel inner), nested (assignmentLevel inner), nested (unaryLevel inner)⟩

/-- The productions of a whole source text. One level more than may be nested lets the depth in the
cursor decide. -/
def top : Level := level (maxSourceNesting + 1)

/-- Statements up to the end of the input. -/
def statementsFrom (acc : List Stmt) : Nat → Production (List Stmt)
  | 0 => stall
  | rounds + 1 => do
    if (← get).atEnd then return acc.reverse
    else statementsFrom ((← top.statement) :: acc) rounds

/-- Runs a production on the tokens of a source text. -/
def onSource (p : Production α) (source : String) : Except Error α :=
  match tokenize source with
  | .error e => .error e
  | .ok tokens =>
    match p.run { tokens } with
    | .ok a _ => .ok a
    | .error e _ => .error e

end Production

/-- Reads a source text that is one expression, with a semicolon behind it or not. -/
def readExpr (source : String) : Except Error Expr :=
  Production.onSource (do
    let e ← Production.top.assignment
    Production.skipSemicolon
    Production.expectEnd
    return e) source

/-- Reads a source text that is a sequence of statements. -/
def readProgram (source : String) : Except Error (List Stmt) :=
  Production.onSource (do Production.statementsFrom [] (← Production.bound)) source

end TraceViewer.Snippet
