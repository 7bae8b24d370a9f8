import TraceViewer.Regex.Pattern

/-!
Patterns as programs: a list of instructions that refer to one another by position. Where an
instruction has two successors the first is preferred.
-/

namespace TraceViewer.Regex

inductive Instruction where
  | oneOf (set : CharClass) (next : Nat)
  | look (condition : Look) (next : Nat)
  | save (slot : Nat) (next : Nat)
  | fork (preferred other : Nat)
  | fail
  | accept

abbrev Program := Array Instruction

/-- Adds an instruction and tells its position. -/
def Program.emit (p : Program) (i : Instruction) : Nat × Program := (p.size, p.push i)

/-- A fork that prefers to go on with `body` when `greedy`. -/
def forkTo (greedy : Bool) (body next : Nat) : Instruction :=
  if greedy then .fork body next else .fork next body

/-- Applies a function that adds instructions in front of a position, `count` times. -/
def emitTimes (body : Nat → Program → Nat × Program) : Nat → Nat → Program → Nat × Program
  | 0, next, p => (next, p)
  | count + 1, next, p =>
    let (start, p) := body next p
    emitTimes body count start p

/-- Up to `count` further rounds, each of which may end the repetition. -/
def emitOptional (body : Nat → Program → Nat × Program) (greedy : Bool) (next : Nat) :
    Nat → Nat → Program → Nat × Program
  | 0, inner, p => (inner, p)
  | count + 1, inner, p =>
    let (start, p) := body inner p
    let (fork, p) := p.emit (forkTo greedy start next)
    emitOptional body greedy next count fork p

/-- One or more rounds: a fork behind the body leads back to it. -/
def emitLoop (body : Nat → Program → Nat × Program) (greedy : Bool) (next : Nat) (p : Program) :
    Nat × Nat × Program :=
  let (loop, p) := p.emit .fail
  let (start, p) := body loop p
  (start, loop, p.setIfInBounds loop (forkTo greedy start next))

/-- Any number of rounds. Where the body can match nothing, the way into the loop is a fork apart
from the one that leads back, so that a round without a character ends the loop. -/
def emitStar (body : Nat → Program → Nat × Program) (simple greedy : Bool) (next : Nat)
    (p : Program) : Nat × Program :=
  let (start, loop, p) := emitLoop body greedy next p
  if simple then (loop, p) else p.emit (forkTo greedy start next)

mutual

/-- Adds the instructions of a pattern in front of the position `next`. -/
def Pattern.emit : Pattern → Nat → Program → Nat × Program
  | .empty, next, p => (next, p)
  | .oneOf set, next, p => p.emit (.oneOf set next)
  | .look condition, next, p => p.emit (.look condition next)
  | .capture group body, next, p =>
    let (stop, p) := p.emit (.save (2 * group + 1) next)
    let (start, p) := body.emit stop p
    p.emit (.save (2 * group) start)
  | .sequence items, next, p => emitSequence items next p
  | .choice items, next, p => emitChoice items next p
  | .repeated body least most greedy, next, p =>
    match least, most with
    | 0, none => emitStar body.emit (!body.canBeEmpty) greedy next p
    | least + 1, none =>
      let (start, _, p) := emitLoop body.emit greedy next p
      emitTimes body.emit least start p
    | least, some most =>
      let (start, p) := emitOptional body.emit greedy next (most - least) next p
      emitTimes body.emit least start p

def emitSequence : List Pattern → Nat → Program → Nat × Program
  | [], next, p => (next, p)
  | item :: rest, next, p =>
    let (start, p) := emitSequence rest next p
    item.emit start p

def emitChoice : List Pattern → Nat → Program → Nat × Program
  | [], _, p => p.emit .fail
  | item :: rest, next, p =>
    let (other, p) := emitChoice rest next p
    let (start, p) := item.emit next p
    p.emit (.fork start other)

end

/-- A program with the position where it starts. -/
structure Compiled where
  program : Program
  start : Nat

/-- The program of a whole regular expression, which saves the ends of the match in the first two
slots. -/
def compile (r : Regex) : Compiled :=
  let (accept, p) := Program.emit #[] .accept
  let (start, p) := (Pattern.capture 0 r.pattern).emit accept p
  ⟨p, start⟩

end TraceViewer.Regex
