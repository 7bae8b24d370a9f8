/-!
Finding one text in another, cutting a text at the places where another stands, and taking the
blanks off its ends.
-/

namespace TraceViewer.Text

/-- The part of `cs` after `start`, when `cs` begins with `start`. -/
def stripStart? : List Char → List Char → Option (List Char)
  | [], cs => some cs
  | _ :: _, [] => none
  | a :: start, c :: cs => if a == c then stripStart? start cs else none

theorem stripStart?_eq_some_iff {start cs rest : List Char} :
    stripStart? start cs = some rest ↔ cs = start ++ rest := by
  induction start generalizing cs with
  | nil => simp [stripStart?, eq_comm]
  | cons a start ih =>
    cases cs with
    | nil => simp [stripStart?]
    | cons c cs =>
      by_cases h : a = c
      · simp [stripStart?, h, ih]
      · simp [stripStart?, h, Ne.symm h]

/-- Cuts `cs` at the first place where `needle` stands: what precedes it and what follows it. -/
def cutAt? (needle : List Char) : List Char → Option (List Char × List Char)
  | [] => if needle.isEmpty then some ([], []) else none
  | c :: cs =>
    match stripStart? needle (c :: cs) with
    | some rest => some ([], rest)
    | none => (cutAt? needle cs).map fun cut => (c :: cut.1, cut.2)

/-- A cut puts the needle back between its two parts. -/
theorem eq_of_cutAt? {needle cs before after : List Char}
    (h : cutAt? needle cs = some (before, after)) : cs = before ++ needle ++ after := by
  induction cs generalizing before with
  | nil =>
    simp only [cutAt?] at h
    split at h
    · rename_i hempty
      simp only [Option.some.injEq, Prod.mk.injEq] at h
      obtain ⟨rfl, rfl⟩ := h
      simpa using hempty
    · simp at h
  | cons c cs ih =>
    simp only [cutAt?] at h
    split at h
    · rename_i rest hstrip
      simp only [Option.some.injEq, Prod.mk.injEq] at h
      obtain ⟨rfl, rfl⟩ := h
      simpa using stripStart?_eq_some_iff.mp hstrip
    · simp only [Option.map_eq_some_iff, Prod.mk.injEq, Prod.exists] at h
      obtain ⟨b, a, hcut, rfl, rfl⟩ := h
      simp [ih hcut]

/-- The number of characters before the first occurrence of `needle`. -/
def indexOf? (needle cs : List Char) : Option Nat := (cutAt? needle cs).map fun cut => cut.1.length

def hasInfix (needle cs : List Char) : Bool := (cutAt? needle cs).isSome

def contains (s needle : String) : Bool := hasInfix needle.toList s.toList

def hasStart (s start : String) : Bool := start.toList.isPrefixOf s.toList

def hasEnd (s stop : String) : Bool := stop.toList.isSuffixOf s.toList

/-- Cuts a text at every occurrence of a needle that is not empty, from left to right. -/
def splitAt (needle : List Char) (cs : List Char) : List (List Char) :=
  match needle with
  | [] => [cs]
  | n :: needle =>
    match h : cutAt? (n :: needle) cs with
    | none => [cs]
    | some (before, after) =>
      have : after.length < cs.length := by
        rw [eq_of_cutAt? h]; simp; omega
      before :: splitAt (n :: needle) after
termination_by cs.length

/-- Texts with `separator` between each two of them. -/
def join (separator : String) (parts : List String) : String :=
  String.intercalate separator parts

/-! ## Blanks -/

/-- Whether a character has the property White_Space. -/
def isBlank (c : Char) : Bool :=
  let n := c.toNat
  (9 ≤ n && n ≤ 13) || n == 0x20 || n == 0x85 || n == 0xa0 || n == 0x1680 ||
    (0x2000 ≤ n && n ≤ 0x200a) || n == 0x2028 || n == 0x2029 || n == 0x202f || n == 0x205f ||
    n == 0x3000

/-- A list of characters without the blanks at its start. -/
def dropBlanks (cs : List Char) : List Char := cs.dropWhile isBlank

/-- A list of characters without the blanks at its end. -/
def dropEndBlanks (cs : List Char) : List Char := (cs.reverse.dropWhile isBlank).reverse

def trimStart (s : String) : String := .ofList (dropBlanks s.toList)

def trimEnd (s : String) : String := .ofList (dropEndBlanks s.toList)

/-- A text without the blanks at its two ends. -/
def trim (s : String) : String := .ofList (dropEndBlanks (dropBlanks s.toList))

end TraceViewer.Text
