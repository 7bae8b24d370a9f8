import TraceViewer.Regex.Class

/-!
Patterns of regular expressions: what a pattern's text stands for once its flags are resolved.
-/

namespace TraceViewer.Regex

/-- A condition on the characters around a position. -/
inductive Look where
  | textStart
  | textEnd
  | lineStart
  | lineEnd
  | crlfLineStart
  | crlfLineEnd
  | wordBoundary
  | noWordBoundary
  | wordStart
  | wordEnd
  | wordStartHalf
  | wordEndHalf
  deriving Repr, DecidableEq

/-- Whether a condition holds between two neighbouring characters, either of which may be missing
at an end of the text. -/
def Look.holds (look : Look) (before after : Option Char) : Bool :=
  let wordBefore := before.any isWordChar
  let wordAfter := after.any isWordChar
  match look with
  | .textStart => before.isNone
  | .textEnd => after.isNone
  | .lineStart => before.all (· == '\n')
  | .lineEnd => after.all (· == '\n')
  | .crlfLineStart =>
    match before with
    | none => true
    | some '\n' => true
    | some '\r' => after != some '\n'
    | some _ => false
  | .crlfLineEnd =>
    match after with
    | none => true
    | some '\r' => true
    | some '\n' => before != some '\r'
    | some _ => false
  | .wordBoundary => wordBefore != wordAfter
  | .noWordBoundary => wordBefore == wordAfter
  | .wordStart => !wordBefore && wordAfter
  | .wordEnd => wordBefore && !wordAfter
  | .wordStartHalf => !wordBefore
  | .wordEndHalf => !wordAfter

inductive Pattern where
  | empty
  | oneOf (set : CharClass)
  | look (condition : Look)
  | capture (group : Nat) (body : Pattern)
  | sequence (items : List Pattern)
  | choice (items : List Pattern)
  | repeated (body : Pattern) (least : Nat) (most : Option Nat) (greedy : Bool)

namespace Pattern

mutual

/-- Whether a pattern can match without taking a character. -/
def canBeEmpty : Pattern → Bool
  | .empty => true
  | .oneOf _ => false
  | .look _ => true
  | .capture _ body => body.canBeEmpty
  | .sequence items => allCanBeEmpty items
  | .choice items => anyCanBeEmpty items
  | .repeated body least _ _ => least == 0 || body.canBeEmpty

def allCanBeEmpty : List Pattern → Bool
  | [] => true
  | p :: rest => p.canBeEmpty && allCanBeEmpty rest

def anyCanBeEmpty : List Pattern → Bool
  | [] => false
  | p :: rest => p.canBeEmpty || anyCanBeEmpty rest

end

mutual

/-- Whether a pattern never takes a character. -/
def takesNothing : Pattern → Bool
  | .empty => true
  | .oneOf _ => false
  | .look _ => true
  | .capture _ body => body.takesNothing
  | .sequence items => allTakeNothing items
  | .choice items => allTakeNothing items
  | .repeated body _ most _ => most == some 0 || body.takesNothing

def allTakeNothing : List Pattern → Bool
  | [] => true
  | p :: rest => p.takesNothing && allTakeNothing rest

end

mutual

/-- The largest number of a group in a pattern; the whole match is group zero. -/
def lastGroup : Pattern → Nat
  | .empty => 0
  | .oneOf _ => 0
  | .look _ => 0
  | .capture group body => max group body.lastGroup
  | .sequence items => lastGroupOf items
  | .choice items => lastGroupOf items
  | .repeated body _ _ _ => body.lastGroup

def lastGroupOf : List Pattern → Nat
  | [] => 0
  | p :: rest => max p.lastGroup (lastGroupOf rest)

end

mutual

/-- The number of steps that a pattern unrolls to: a character takes one for each of its bytes. -/
def weight : Pattern → Nat
  | .empty => 1
  | .oneOf (.range _ high) => high.utf8Size
  | .oneOf _ => 40
  | .look _ => 1
  | .capture _ body => body.weight + 2
  | .sequence items => weightOf 0 items
  | .choice items => weightOf 0 items
  | .repeated body least most _ => body.weight * max 1 (max least (most.getD least)) + 2

/-- The weight of several patterns, added to `sum`. -/
def weightOf (sum : Nat) : List Pattern → Nat
  | [] => sum
  | p :: rest => weightOf (sum + p.weight) rest

end

/-- A repetition, simplified: what takes nothing repeats at most once, and repeating exactly once
or never at all needs no repetition. -/
def repeating (body : Pattern) (least : Nat) (most : Option Nat) (greedy : Bool) : Pattern :=
  let (least, most) :=
    if body.takesNothing then (min least 1, some (min (most.getD 1) 1)) else (least, most)
  if least = 0 ∧ most = some 0 then .empty
  else if least = 1 ∧ most = some 1 then body
  else .repeated body least most greedy

/-- Items one after another; none is the empty pattern and one is itself. -/
def ofSequence : List Pattern → Pattern
  | [] => .empty
  | [p] => p
  | items => .sequence items

def ofChoice : List Pattern → Pattern
  | [p] => p
  | items => .choice items

/-- The pattern that matches a text literally. -/
def literal (cs : List Char) : Pattern := ofSequence (cs.map fun c => .oneOf (.ofChar c))

end Pattern

end TraceViewer.Regex

namespace TraceViewer

open Regex

/-- A readable regular expression: its pattern and the names of its groups. -/
structure Regex where
  pattern : Pattern
  groupNames : List (String × Nat)

namespace Regex

/-- How many groups a match reports, the whole match among them. -/
def groupCount (r : Regex) : Nat := r.pattern.lastGroup + 1

def ofText (s : String) : Regex := ⟨.literal s.toList, []⟩

end Regex

end TraceViewer
