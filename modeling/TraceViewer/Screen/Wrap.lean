import TraceViewer.Text.Search
import TraceViewer.Text.Symbol

/-!
Breaking a line that is too wide: at blanks, and inside a word only where the word is wider than a
whole line.
-/

namespace TraceViewer

namespace Symbol

/-- Whether a symbol is a blank at which a line may break. -/
def isBlank (s : Symbol) : Bool := s.chars.all Text.isBlank && s.chars != ['\u00a0']

end Symbol

/-- A line that is being broken: the lines before it, what is on it so far, and the blanks and the
word that come next. The newest lines and symbols come first, but the blanks are in order. -/
structure Wrapping where
  done : List (List Symbol) := []
  line : List Symbol := []
  blanks : List Symbol := []
  word : List Symbol := []
  inWord : Bool := false

namespace Wrapping

/-- Whether the word that comes next is to be put on the line before the next symbol is looked at:
it has ended, or an empty line cannot take it with the symbol. -/
def endsWord (w : Wrapping) (width : Nat) (trims : Bool) (s : Symbol) : Bool :=
  let wordWidth := Symbol.widthOf w.word
  let blankWidth := Symbol.widthOf w.blanks
  (w.inWord && s.isBlank) ||
    (w.line.isEmpty &&
      if trims then width < wordWidth + s.width || width < blankWidth + s.width
      else width < wordWidth + blankWidth + s.width)

/-- Puts the word on the line, after its blanks unless they start a trimmed line. -/
def placeWord (w : Wrapping) (trims : Bool) : Wrapping :=
  let line := if trims && w.line.isEmpty then w.line else w.blanks.reverse ++ w.line
  { w with line := w.word ++ line, blanks := [], word := [] }

/-- Whether the line is full, or the word that comes next fills it. -/
def isFull (w : Wrapping) (width : Nat) (s : Symbol) : Bool :=
  let lineWidth := Symbol.widthOf w.line
  width ≤ lineWidth ||
    (width ≤ lineWidth + Symbol.widthOf w.blanks + Symbol.widthOf w.word && 0 < s.width)

/-- The blanks after those that would have stood in the rest of a line and the one after them. -/
def blanksAfter (room : Nat) : List Symbol → List Symbol
  | [] => []
  | b :: rest => if room < b.width then rest else blanksAfter (room - b.width) rest

/-- Whether some blank is left after those that would have stood in the rest of a line. -/
def overflows (room : Nat) : List Symbol → Bool
  | [] => false
  | b :: rest => room < b.width || overflows (room - b.width) rest

/-- Ends the line. -/
def breakLine (w : Wrapping) (width : Nat) : Wrapping :=
  let room := width - Symbol.widthOf w.line
  { w with done := w.line.reverse :: w.done, line := [], blanks := blanksAfter room w.blanks }

/-- Adds a symbol to what comes next. -/
def push (w : Wrapping) (s : Symbol) : Wrapping :=
  if s.isBlank then { w with blanks := w.blanks ++ [s], inWord := false }
  else { w with word := s :: w.word, inWord := true }

/-- Takes the next symbol; one that is wider than a line is left out, and so is a blank at which the
line breaks. -/
def step (width : Nat) (trims : Bool) (w : Wrapping) (s : Symbol) : Wrapping :=
  if width < s.width then w
  else
    let w := if w.endsWord width trims s then w.placeWord trims else w
    if w.isFull width s then
      let swallowed := s.isBlank && !overflows (width - Symbol.widthOf w.line) w.blanks
      let w := w.breakLine width
      if swallowed then w else w.push s
    else w.push s

/-- All lines once there are no more symbols; at least one. Blanks alone are an empty line. -/
def finish (w : Wrapping) (trims : Bool) : List (List Symbol) :=
  let done :=
    if !w.line.isEmpty || !w.word.isEmpty then (w.placeWord trims).line.reverse :: w.done
    else if w.blanks.isEmpty then w.done
    else [] :: w.done
  if done.isEmpty then [[]] else done.reverse

end Wrapping

/-- A line broken into lines of at most `width` cells. When it is trimmed, no line starts with
blanks. -/
def wrapLine (width : Nat) (trims : Bool) (line : String) : List (List Symbol) :=
  ((Symbol.ofLine line).foldl (Wrapping.step width trims) {}).finish trims

/-- The number of lines that texts need when each is broken after every `width` cells. -/
def wrappedHeight (lines : List String) (width : Nat) : Nat :=
  let width := max width 1
  lines.foldl (fun n line => n + max ((Text.width line + width - 1) / width) 1) 0

end TraceViewer
