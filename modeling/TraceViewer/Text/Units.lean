/-!
The units a text is measured in: bytes of UTF-8, code units of UTF-16, and characters.
-/

namespace TraceViewer.Text

/-- The bytes that characters take in UTF-8. -/
def byteLength : List Char → Nat
  | [] => 0
  | c :: cs => c.utf8Size + byteLength cs

@[simp] theorem byteLength_append (xs ys : List Char) :
    byteLength (xs ++ ys) = byteLength xs + byteLength ys := by
  induction xs with
  | nil => simp [byteLength]
  | cons c cs ih => simp [byteLength, ih, Nat.add_assoc]

theorem byteLength_replicate (n : Nat) (c : Char) :
    byteLength (List.replicate n c) = n * c.utf8Size := by
  induction n with
  | zero => rw [List.replicate_zero, byteLength, Nat.zero_mul]
  | succ n ih => rw [List.replicate_succ, byteLength, ih, Nat.succ_mul, Nat.add_comm]

/-- The code units of UTF-16 that a text takes: two for a character beyond U+FFFF. -/
def units16 (s : String) : Nat :=
  s.toList.foldl (fun n c => n + if 0xffff < c.toNat then 2 else 1) 0

/-- The text of one character. -/
def ofChar (c : Char) : String := .ofList [c]

/-! ## Positions in bytes -/

/-- Where the character stands that has `count` characters before it. -/
def byteOffset (cs : List Char) (count : Nat) : Nat :=
  (cs.take count).foldl (fun n c => n + c.utf8Size) 0

theorem byteOffset_eq (cs : List Char) (count : Nat) :
    byteOffset cs count = byteLength (cs.take count) := by
  have hfold (xs : List Char) (n : Nat) :
      xs.foldl (fun n c => n + c.utf8Size) n = n + byteLength xs := by
    induction xs generalizing n with
    | nil => rfl
    | cons c xs ih => rw [List.foldl_cons, ih, byteLength, Nat.add_assoc]
  rw [byteOffset, hfold, Nat.zero_add]

theorem byteOffset_mono (cs : List Char) {a b : Nat} (h : a ≤ b) :
    byteOffset cs a ≤ byteOffset cs b := by
  obtain ⟨more, rfl⟩ := Nat.exists_eq_add_of_le h
  rw [byteOffset_eq, byteOffset_eq, List.take_add, byteLength_append]
  exact Nat.le_add_right _ _

/-- The characters that end at a position or before it, added to `count`. -/
def charsWithin (count : Nat) : Nat → List Char → Nat
  | _, [] => count
  | position, c :: cs =>
    if c.utf8Size ≤ position then charsWithin (count + 1) (position - c.utf8Size) cs else count

/-- The characters that begin before a position, added to `count`. -/
def charsBefore (count : Nat) : Nat → List Char → Nat
  | _, [] => count
  | position, c :: cs =>
    if 0 < position then charsBefore (count + 1) (position - c.utf8Size) cs else count

/-- At the offset of a character both counts are the number of characters before it. -/
theorem chars_byteLength_take (count : Nat) (cs : List Char) {n : Nat} (h : n ≤ cs.length) :
    charsWithin count (byteLength (cs.take n)) cs = count + n ∧
      charsBefore count (byteLength (cs.take n)) cs = count + n := by
  induction n generalizing count cs with
  | zero =>
    cases cs with
    | nil => exact ⟨rfl, rfl⟩
    | cons c cs => exact ⟨if_neg (Nat.not_le_of_gt c.utf8Size_pos), if_neg (Nat.lt_irrefl 0)⟩
  | succ n ih =>
    cases cs with
    | nil => exact absurd h (Nat.not_succ_le_zero n)
    | cons c cs =>
      have hpos : 0 < c.utf8Size + byteLength (cs.take n) := Nat.add_pos_left c.utf8Size_pos _
      have hrest := ih (count + 1) cs (Nat.le_of_succ_le_succ h)
      rw [List.take_succ_cons, byteLength, charsWithin, charsBefore, if_pos (Nat.le_add_right _ _),
        if_pos hpos, Nat.add_sub_cancel_left, hrest.1, hrest.2]
      omega

/-- The characters from a position on. -/
def dropBytes (cs : List Char) (start : Nat) : List Char := cs.drop (charsBefore 0 start cs)

/-- The characters that lie between two positions. -/
def sliceBytes (cs : List Char) (start stop : Nat) : List Char :=
  (cs.take (charsWithin 0 stop cs)).drop (charsBefore 0 start cs)

section Offsets

variable (cs : List Char) {a b : Nat} (ha : a ≤ cs.length) (hb : b ≤ cs.length)
include ha

theorem charsBefore_byteOffset : charsBefore 0 (byteOffset cs a) cs = a := by
  rw [byteOffset_eq, (chars_byteLength_take 0 cs ha).2, Nat.zero_add]

theorem dropBytes_byteOffset : dropBytes cs (byteOffset cs a) = cs.drop a := by
  rw [dropBytes, charsBefore_byteOffset cs ha]

include hb

theorem sliceBytes_byteOffset :
    sliceBytes cs (byteOffset cs a) (byteOffset cs b) = (cs.take b).drop a := by
  rw [sliceBytes, charsBefore_byteOffset cs ha, byteOffset_eq cs b,
    (chars_byteLength_take 0 cs hb).1, Nat.zero_add]

theorem le_of_byteOffset_le (h : byteOffset cs a ≤ byteOffset cs b) : a ≤ b := by
  rcases Nat.le_total a b with hab | hba
  · exact hab
  · have hsame : byteOffset cs a = byteOffset cs b := Nat.le_antisymm h (byteOffset_mono cs hba)
    have hab : a = b := by
      rw [← charsBefore_byteOffset cs ha, hsame, charsBefore_byteOffset cs hb]
    exact Nat.le_of_eq hab

end Offsets

/-- Whether a position is between two characters of a text or at one of its ends. -/
def OnBoundary (cs : List Char) (position : Nat) : Prop :=
  ∃ count ≤ cs.length, position = byteOffset cs count

end TraceViewer.Text
