import TraceViewer.Text.Units

/-!
What is asked of a library of regular expressions: it escapes texts and compiles patterns, and a
compiled pattern tells where it matches in a text. Positions count bytes.
-/

namespace TraceViewer.Regex

open TraceViewer.Text

/-- Where a match stands, and each of its groups that took part. -/
structure Match where
  whole : Nat × Nat
  groups : List (Option (Nat × Nat))
  deriving Repr, DecidableEq

/-- The groups with the whole match in front. -/
def Match.all (m : Match) : List (Option (Nat × Nat)) := some m.whole :: m.groups

/-- A compiled pattern: its first match in a text, all matches from left to right, and what a
replacement with references to groups stands for at a match. -/
structure Searcher where
  search : List Char → Option Match
  searchAll : List Char → List Match
  expand : List Char → Match → List Char → List Char

/-- Why a pattern is not compiled. -/
inductive Refusal where
  | malformed
  | tooLarge
  deriving Repr, DecidableEq

/-- A library: `escape` writes a text as a pattern that matches just the text. -/
structure Library where
  escape : String → String
  compile : String → Except Refusal Searcher

/-! ## What a library promises -/

/-- Whether a match stands behind a position of a text. -/
structure Match.Follows (text : List Char) (position : Nat) (m : Match) : Prop where
  behind : position ≤ m.whole.1
  in_order : m.whole.1 ≤ m.whole.2
  begins : OnBoundary text m.whole.1
  ends : OnBoundary text m.whole.2

/-- Whether matches of a text follow one another from a position on. -/
def InOrder (text : List Char) : Nat → List Match → Prop
  | _, [] => True
  | position, m :: rest => m.Follows text position ∧ InOrder text m.whole.2 rest

theorem InOrder.take {text : List Char} : ∀ {position : Nat} {ms : List Match} (n : Nat),
    InOrder text position ms → InOrder text position (ms.take n)
  | _, [], _, _ => by rw [List.take_nil]; trivial
  | _, _ :: _, 0, _ => trivial
  | _, _ :: _, n + 1, h => ⟨h.1, h.2.take n⟩

/-- The promises of a library on which replacing rests: an escaped text is well formed, if perhaps
too large, and successive matches start at or after the end of the one before and lie on boundaries
of characters. -/
structure Library.Lawful (library : Library) : Prop where
  escaped (text : String) : library.compile (library.escape text) ≠ .error .malformed
  inOrder {pattern : String} {searcher : Searcher} (h : library.compile pattern = .ok searcher)
    (text : List Char) : InOrder text 0 (searcher.searchAll text)

end TraceViewer.Regex
