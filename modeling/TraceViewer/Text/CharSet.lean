/-!
Sets of characters given as ranges of code points. The tables of Unicode properties are written as
text, each range as two hexadecimal bounds, so that they can be read against the standard.
-/

namespace TraceViewer.Text

/-- The value of one hexadecimal digit. -/
def hexDigit? (c : Char) : Option Nat :=
  let n := c.toNat
  if '0' ≤ c ∧ c ≤ '9' then some (n - 48)
  else if 'a' ≤ c ∧ c ≤ 'f' then some (n - 87)
  else if 'A' ≤ c ∧ c ≤ 'F' then some (n - 55)
  else none

/-- The number that hexadecimal digits write; other characters count as zero. -/
def hexOf (digits : List Char) : Nat :=
  digits.foldl (fun acc c => acc * 16 + (hexDigit? c).getD 0) 0

def hexValue (digits : String) : Nat := hexOf digits.toList

/-- A set of characters as inclusive ranges of code points. -/
structure CharSet where
  ranges : List (Nat × Nat)

namespace CharSet

def contains (s : CharSet) (c : Char) : Bool :=
  s.ranges.any fun r => r.1 ≤ c.toNat && c.toNat ≤ r.2

/-- Reads lines of ranges such as "41-5a aa", where a lone bound stands for one character. -/
def ofLines (lines : List String) : CharSet :=
  ⟨(lines.flatMap (·.toList.splitOn ' ')).map fun range =>
    match range.splitOn '-' with
    | [low, high] => (hexOf low, hexOf high)
    | _ => (hexOf range, hexOf range)⟩

def empty : CharSet := ⟨[]⟩

def union (s t : CharSet) : CharSet := ⟨s.ranges ++ t.ranges⟩

@[simp] theorem contains_union (s t : CharSet) (c : Char) :
    (s.union t).contains c = (s.contains c || t.contains c) := by
  simp [union, contains, List.any_append]

end CharSet

end TraceViewer.Text
