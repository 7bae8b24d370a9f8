import TraceViewer.Number.Reading
import TraceViewer.Regex.Reader
import TraceViewer.Regex.Search

/-!
The library of regular expressions that snippets are run with, which stands for any that keeps the
promises of `Library.Lawful`. It knows the usual syntax and the properties of characters in
`Regex/Property`, and no others. In a text that replaces a match a dollar sign brings in a group, by
number or by name, bare or in braces; two dollar signs stand for one. A bare name reaches as far as
letters, digits and underscores do.
-/

namespace TraceViewer.Regex

open TraceViewer.Text

/-! ## Replacements -/

/-- The text of a group, empty where the group took no part. -/
def groupText (text : List Char) (m : Match) (group : Nat) : List Char :=
  match m.all[group]?.join with
  | some (start, stop) => sliceBytes text start stop
  | none => []

/-- What a reference stands for: a group by number or by name, and nothing for an unknown one. -/
def Prepared.referenced (p : Prepared) (text : List Char) (m : Match) (name : List Char) :
    List Char :=
  match Number.size? name with
  | some n => groupText text m n
  | none =>
    match p.regex.groupNames.lookup (.ofList name) with
    | some n => groupText text m n
    | none => []

def isReferenceChar (c : Char) : Bool := c.isAlphanum || c == '_'

/-- The reference after a dollar sign, with what follows it. -/
def reference? (cs : List Char) : Option (List Char × List Char) :=
  match cs with
  | '\x7b' :: rest =>
    match rest.dropWhile (· != '\x7d') with
    | _ :: after => some (rest.takeWhile (· != '\x7d'), after)
    | [] => none
  | cs =>
    if (cs.takeWhile isReferenceChar).isEmpty then none
    else some (cs.takeWhile isReferenceChar, cs.dropWhile isReferenceChar)

/-- A replacement with its references filled in. Each step takes a character. -/
def Prepared.expandFrom (p : Prepared) (text : List Char) (m : Match) :
    Nat → List Char → List Char
  | 0, _ => []
  | _, [] => []
  | bound + 1, '$' :: '$' :: rest => '$' :: p.expandFrom text m bound rest
  | bound + 1, '$' :: rest =>
    match reference? rest with
    | some (name, rest) => p.referenced text m name ++ p.expandFrom text m bound rest
    | none => '$' :: p.expandFrom text m bound rest
  | bound + 1, c :: rest => c :: p.expandFrom text m bound rest

def Prepared.expand (p : Prepared) (text : List Char) (m : Match) (replacement : List Char) :
    List Char :=
  p.expandFrom text m (replacement.length + 1) replacement

/-! ## The library -/

/-- A match that is told in bytes in place of characters. -/
def Match.inBytes (text : List Char) (m : Match) : Match :=
  let place (span : Nat × Nat) := (byteOffset text span.1, byteOffset text span.2)
  ⟨place m.whole, m.groups.map (·.map place)⟩

def Prepared.searcher (p : Prepared) : Searcher where
  search text := (p.searchFrom text 0).map (Match.inBytes text)
  searchAll text := (p.matches text).map (Match.inBytes text)
  expand := p.expand

/-- A character in a pattern that it matches, behind a backslash if it has a meaning of its own. -/
def escapeChar (c : Char) : List Char := if isMeta c then ['\\', c] else [c]

def escape (text : String) : String := .ofList (text.toList.flatMap escapeChar)

/-- A pattern whose program would take too much room is refused like one that cannot be read. -/
def engine : Library where
  escape := escape
  compile pattern :=
    match read pattern with
    | .ok regex => .ok (Prepared.ofRegex regex).searcher
    | .error .tooLarge => .error .tooLarge
    | .error _ => .error .malformed

end TraceViewer.Regex
