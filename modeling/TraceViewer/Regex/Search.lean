import TraceViewer.Regex.Library
import TraceViewer.Regex.Program

/-!
Searching with a regular expression. All ways through the program advance together over the text,
in the order in which they are preferred, and a way that reaches an instruction where a preferred
one already is gives up. So the leftmost match is found, and of those that start there the one
that is preferred; the effort is linear in the text.
-/

namespace TraceViewer.Regex

/-- The ends of the groups, two slots a group, as positions in the text. -/
abbrev Slots := Array (Option Nat)

/-- A way through the program that waits for a character, or that has reached the end. -/
structure Way where
  place : Nat
  slots : Slots

/-- The ways found so far at one position of the text, the least preferred first, and the
instructions that were reached. -/
structure Front where
  reached : Array Bool
  ways : List Way

/-- Follows the instructions that take no character. No instruction is entered twice, so the size
of the program bounds the depth. -/
def follow (program : Program) (position : Nat) (before after : Option Char) :
    Nat → Nat → Slots → Front → Front
  | 0, _, _, front => front
  | bound + 1, pc, slots, front =>
    if front.reached.getD pc true then front
    else
      let front := { front with reached := front.reached.setIfInBounds pc true }
      match program[pc]? with
      | some (.look condition next) =>
        if condition.holds before after then
          follow program position before after bound next slots front
        else front
      | some (.save slot next) =>
        follow program position before after bound next (slots.setIfInBounds slot (some position))
          front
      | some (.fork preferred other) =>
        let front := follow program position before after bound preferred slots front
        follow program position before after bound other slots front
      | some .fail => front
      | some _ => { front with ways := ⟨pc, slots⟩ :: front.ways }
      | none => front

/-- Lets the ways take one character, the most preferred first. A way that has reached the end is
the match so far, and the ways after it are dropped. -/
def advance (program : Program) (position : Nat) (c : Option Char) (after : Option Char) :
    List Way → Front → Option Slots → Front × Option Slots
  | [], front, found => (front, found)
  | way :: rest, front, found =>
    match program[way.place]? with
    | some .accept => (front, some way.slots)
    | some (.oneOf set next) =>
      if c.any set.contains then
        let front := follow program (position + 1) c after (program.size + 1) next way.slots front
        advance program position c after rest front found
      else advance program position c after rest front found
    | _ => advance program position c after rest front found

/-- Runs the program over the rest of the text. Until a match is found, each position may start
one, less preferred than the ways under way. -/
def runFrom (compiled : Compiled) (slotCount : Nat) :
    Nat → Option Char → List Char → Front → Option Slots → Option Slots
  | position, before, text, front, found =>
    let program := compiled.program
    let front :=
      if found.isSome then front
      else
        follow program position before text.head? (program.size + 1) compiled.start
          (Array.replicate slotCount none) front
    if front.ways.isEmpty && found.isSome then found
    else
      let fresh : Front := ⟨Array.replicate program.size false, []⟩
      match text with
      | [] => (advance program position none none front.ways.reverse fresh found).2
      | c :: rest =>
        let (front, found) :=
          advance program position (some c) rest.head? front.ways.reverse fresh found
        runFrom compiled slotCount (position + 1) (some c) rest front found
termination_by _ _ text => text

def pairUp : List (Option Nat) → List (Option (Nat × Nat))
  | some a :: some b :: rest => some (a, b) :: pairUp rest
  | _ :: _ :: rest => none :: pairUp rest
  | _ => []

/-- The match that slots tell of, if they tell where it stands. -/
def Match.ofSlots? (slots : Slots) : Option Match :=
  match pairUp slots.toList with
  | some whole :: groups => some ⟨whole, groups⟩
  | _ => none

/-- A regular expression ready to search with. Its matches are told in characters. -/
structure Prepared where
  regex : Regex
  compiled : Compiled

def Prepared.ofRegex (r : Regex) : Prepared := ⟨r, r.compile⟩

/-- The first match at or after a position. What precedes the position still counts for the
conditions on it. -/
def Prepared.searchFrom (p : Prepared) (text : List Char) (start : Nat) : Option Match :=
  if text.length < start then none
  else
    let before := if start = 0 then none else text[start - 1]?
    let fresh : Front := ⟨Array.replicate p.compiled.program.size false, []⟩
    (runFrom p.compiled (2 * p.regex.groupCount) start before (text.drop start) fresh none).bind
      Match.ofSlots?

/-- The matches from a position on. Each search starts where the last match ended; an empty match
there is passed over, as it would repeat that end. -/
def Prepared.matchesFrom (p : Prepared) (text : List Char) :
    Nat → Nat → Option Nat → List Match
  | 0, _, _ => []
  | bound + 1, start, last =>
    match p.searchFrom text start with
    | none => []
    | some m =>
      let (start', stop) := m.whole
      if start' == stop && last == some stop then
        match p.searchFrom text (start + 1) with
        | none => []
        | some m => m :: p.matchesFrom text bound m.whole.2 (some m.whole.2)
      else m :: p.matchesFrom text bound stop (some stop)

/-- All matches that do not overlap, from left to right. -/
def Prepared.matches (p : Prepared) (text : List Char) : List Match :=
  p.matchesFrom text (text.length + 2) 0 none

end TraceViewer.Regex
