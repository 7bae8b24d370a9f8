import TraceViewer.Text.Quoted
import TraceViewer.Text.Width

/-!
Texts as symbols: characters with those that extend them. A symbol is what stands in a cell, or in
two, and emoji may be wider or narrower as symbols than their characters are.
-/

namespace TraceViewer

/-- A character with those that belong to it, and the cells that they take. -/
structure Symbol where
  chars : List Char
  width : Nat

namespace Symbol

/-- The characters that can show as emoji. -/
def emojiTable : Text.CharSet := .ofLines
    ["23 2a 30-39 a9 ae 203c 2049 2122 2139 2194-2199 21a9-21aa 231a-231b 2328 23cf 23e9-23f3",
    "23f8-23fa 24c2 25aa-25ab 25b6 25c0 25fb-25fe 2600-2604 260e 2611 2614-2615 2618 261d 2620",
    "2622-2623 2626 262a 262e-262f 2638-263a 2640 2642 2648-2653 265f-2660 2663 2665-2666 2668",
    "267b 267e-267f 2692-2697 2699 269b-269c 26a0-26a1 26a7 26aa-26ab 26b0-26b1 26bd-26be",
    "26c4-26c5 26c8 26ce-26cf 26d1 26d3-26d4 26e9-26ea 26f0-26f5 26f7-26fa 26fd 2702 2705",
    "2708-270d 270f 2712 2714 2716 271d 2721 2728 2733-2734 2744 2747 274c 274e 2753-2755 2757",
    "2763-2764 2795-2797 27a1 27b0 27bf 2934-2935 2b05-2b07 2b1b-2b1c 2b50 2b55 3030 303d 3297",
    "3299 1f004 1f0cf 1f170-1f171 1f17e-1f17f 1f18e 1f191-1f19a 1f1e6-1f1ff 1f201-1f202 1f21a",
    "1f22f 1f232-1f23a 1f250-1f251 1f300-1f321 1f324-1f393 1f396-1f397 1f399-1f39b 1f39e-1f3f0",
    "1f3f3-1f3f5 1f3f7-1f4fd 1f4ff-1f53d 1f549-1f54e 1f550-1f567 1f56f-1f570 1f573-1f57a 1f587",
    "1f58a-1f58d 1f590 1f595-1f596 1f5a4-1f5a5 1f5a8 1f5b1-1f5b2 1f5bc 1f5c2-1f5c4 1f5d1-1f5d3",
    "1f5dc-1f5de 1f5e1 1f5e3 1f5e8 1f5ef 1f5f3 1f5fa-1f64f 1f680-1f6c5 1f6cb-1f6d2 1f6d5-1f6d7",
    "1f6dc-1f6e5 1f6e9 1f6eb-1f6ec 1f6f0 1f6f3-1f6fc 1f7e0-1f7eb 1f7f0 1f90c-1f93a 1f93c-1f945",
    "1f947-1f9ff 1fa70-1fa7c 1fa80-1fa89 1fa8f-1fac6 1face-1fadc 1fadf-1fae9 1faf0-1faf8"]

/-- The characters that show as emoji unless they are told not to. -/
def emojiFirstTable : Text.CharSet := .ofLines
    ["231a-231b 23e9-23ec 23f0 23f3 25fd-25fe 2614-2615 2648-2653 267f 2693 26a1 26aa-26ab",
    "26bd-26be 26c4-26c5 26ce 26d4 26ea 26f2-26f3 26f5 26fa 26fd 2705 270a-270b 2728 274c 274e",
    "2753-2755 2757 2795-2797 27b0 27bf 2b1b-2b1c 2b50 2b55 1f004 1f0cf 1f18e 1f191-1f19a",
    "1f1e6-1f1ff 1f300-1f320 1f32d-1f335 1f337-1f37c 1f37e-1f393 1f3a0-1f3ca 1f3cf-1f3d3",
    "1f3e0-1f3f0 1f3f4 1f3f8-1f43e 1f440 1f442-1f4fc 1f4ff-1f53d 1f54b-1f54e 1f550-1f567 1f57a",
    "1f595-1f596 1f5a4 1f5fb-1f64f 1f680-1f6c5 1f6cc 1f6d0-1f6d2 1f6d5-1f6d7 1f6dc-1f6df",
    "1f6eb-1f6ec 1f6f4-1f6fc 1f7e0-1f7eb 1f7f0 1f90c-1f93a 1f93c-1f945 1f947-1f9ff 1fa70-1fa7c",
    "1fa80-1fa89 1fa8f-1fac6 1face-1fadc 1fadf-1fae9 1faf0-1faf8"]

/-- The emoji that a skin tone can follow. -/
def tonedTable : Text.CharSet := .ofLines
    ["261d 26f9 270a-270d 1f385 1f3c2-1f3c4 1f3c7 1f3ca-1f3cc 1f442-1f443 1f446-1f450",
    "1f466-1f478 1f47c 1f481-1f483 1f485-1f487 1f48f 1f491 1f4aa 1f574-1f575 1f57a 1f590",
    "1f595-1f596 1f645-1f647 1f64b-1f64f 1f6a3 1f6b4-1f6b6 1f6c0 1f6cc 1f90c 1f90f 1f918-1f91f",
    "1f926 1f930-1f939 1f93c-1f93e 1f977 1f9b5-1f9b6 1f9b8-1f9b9 1f9bb 1f9cd-1f9cf 1f9d1-1f9dd",
    "1fac3-1fac5 1faf0-1faf8"]

/-- The pictures, which joiners can join. -/
def pictureTable : Text.CharSet := .ofLines
    ["a9 ae 203c 2049 2122 2139 2194-2199 21a9-21aa 231a-231b 2328 23cf 23e9-23f3 23f8-23fa 24c2",
    "25aa-25ab 25b6 25c0 25fb-25fe 2600-2604 260e 2611 2614-2615 2618 261d 2620 2622-2623 2626",
    "262a 262e-262f 2638-263a 2640 2642 2648-2653 265f-2660 2663 2665-2666 2668 267b 267e-267f",
    "2692-2697 2699 269b-269c 26a0-26a1 26a7 26aa-26ab 26b0-26b1 26bd-26be 26c4-26c5 26c8",
    "26ce-26cf 26d1 26d3-26d4 26e9-26ea 26f0-26f5 26f7-26fa 26fd 2702 2705 2708-270d 270f 2712",
    "2714 2716 271d 2721 2728 2733-2734 2744 2747 274c 274e 2753-2755 2757 2763-2764 2795-2797",
    "27a1 27b0 27bf 2934-2935 2b05-2b07 2b1b-2b1c 2b50 2b55 3030 303d 3297 3299 1f004",
    "1f02c-1f02f 1f094-1f09f 1f0af-1f0b0 1f0c0 1f0cf-1f0d0 1f0f6-1f0ff 1f170-1f171 1f17e-1f17f",
    "1f18e 1f191-1f19a 1f1ae-1f1e5 1f201-1f20f 1f21a 1f22f 1f232-1f23a 1f23c-1f23f 1f249-1f25f",
    "1f266-1f321 1f324-1f393 1f396-1f397 1f399-1f39b 1f39e-1f3f0 1f3f3-1f3f5 1f3f7-1f3fa",
    "1f400-1f4fd 1f4ff-1f53d 1f549-1f54e 1f550-1f567 1f56f-1f570 1f573-1f57a 1f587 1f58a-1f58d",
    "1f590 1f595-1f596 1f5a4-1f5a5 1f5a8 1f5b1-1f5b2 1f5bc 1f5c2-1f5c4 1f5d1-1f5d3 1f5dc-1f5de",
    "1f5e1 1f5e3 1f5e8 1f5ef 1f5f3 1f5fa-1f64f 1f680-1f6c5 1f6cb-1f6d2 1f6d5-1f6e5 1f6e9",
    "1f6eb-1f6f0 1f6f3-1f6ff 1f7da-1f7ff 1f80c-1f80f 1f848-1f84f 1f85a-1f85f 1f888-1f88f",
    "1f8ae-1f8af 1f8bc-1f8bf 1f8c2-1f8cf 1f8d9-1f8ff 1f90c-1f93a 1f93c-1f945 1f947-1f9ff",
    "1fa58-1fa5f 1fa6e-1faff 1fc00-1fffd"]

/-- The joiner, which extends what it follows and ties a picture to it. -/
def joiner : Char := '\u200d'

/-- Follows a character that is to show as an emoji. -/
def emojiStyle : Char := '\ufe0f'

/-- Follows a character that is not to show as an emoji. -/
def textStyle : Char := '\ufe0e'

/-- The skin tones. -/
def isTone (c : Char) : Bool := 0x1f3fb ≤ c.toNat && c.toNat ≤ 0x1f3ff

/-- The later parts of a Korean syllable. -/
def isSyllablePart (c : Char) : Bool :=
  let n := c.toNat
  (0x1160 ≤ n && n ≤ 0x11ff) || (0xd7b0 ≤ n && n ≤ 0xd7ff)

/-- The letters that stand for a flag in pairs. -/
def isFlagLetter (c : Char) : Bool := 0x1f1e6 ≤ c.toNat && c.toNat ≤ 0x1f1ff

/-- Whether a character belongs to the one before it. -/
def extendsSymbol (c : Char) : Bool :=
  0x300 ≤ c.toNat &&
    (c == joiner || isTone c || isSyllablePart c || Text.extendingTable.contains c)

/-- The characters that belong to a symbol after its first one, and what follows them. A picture
may be joined to a picture. -/
def takeRest (isPicture afterJoiner : Bool) : List Char → List Char × List Char
  | [] => ([], [])
  | c :: cs =>
    if extendsSymbol c || (isPicture && afterJoiner && pictureTable.contains c) then
      let (more, rest) := takeRest isPicture (c == joiner) cs
      (c :: more, rest)
    else ([], c :: cs)

theorem length_takeRest (isPicture afterJoiner : Bool) (cs : List Char) :
    (takeRest isPicture afterJoiner cs).2.length ≤ cs.length := by
  induction cs generalizing afterJoiner with
  | nil => simp [takeRest]
  | cons c cs ih =>
    simp only [takeRest]
    split
    · have := ih (c == joiner)
      simp only [List.length_cons]
      omega
    · simp

/-- The cells that a symbol takes by its first character and the rest of it. A line break takes
none, and other controls take one. -/
def measure (c : Char) (more : List Char) : Nat :=
  let styled := more.head? == some emojiStyle && emojiTable.contains c
  let toned := more.head?.any isTone && tonedTable.contains c
  let joined := more.contains joiner && more.any pictureTable.contains
  let plain := more.head? == some textStyle && emojiFirstTable.contains c
  if c == '\n' || (c == '\r' && more == ['\n']) then 0
  else if styled || toned || joined then 2
  else if plain then 1
  else (Text.charWidth? c).getD 1 + Text.widthOf more

/-- The characters that belong to the symbol of `c`, and what follows them: the second character of
a line break, and the second letter of a flag with those that extend it. -/
def takeAfter (c : Char) : List Char → List Char × List Char
  | [] => ([], [])
  | d :: cs =>
    if c == '\r' && d == '\n' then ([d], cs)
    else if isFlagLetter c && isFlagLetter d then
      let (more, rest) := takeRest false false cs
      (d :: more, rest)
    else takeRest (pictureTable.contains c) false (d :: cs)

theorem length_takeAfter (c : Char) (cs : List Char) :
    (takeAfter c cs).2.length ≤ cs.length := by
  cases cs with
  | nil => simp [takeAfter]
  | cons d cs =>
    have := length_takeRest false false cs
    have := length_takeRest (pictureTable.contains c) false (d :: cs)
    simp only [takeAfter]
    split
    · simp
    · split <;> simp only [List.length_cons] at * <;> omega

/-- The symbols of some characters. -/
def ofChars (cs : List Char) : List Symbol :=
  match cs with
  | [] => []
  | c :: cs =>
    have := length_takeAfter c cs
    let taken := takeAfter c cs
    ⟨c :: taken.1, measure c taken.1⟩ :: ofChars taken.2
termination_by cs.length

/-- The symbols of a line; line breaks in it show nothing. -/
def ofLine (s : String) : List Symbol := (ofChars s.toList).filter fun s => s.chars != ['\n']

/-- The cells that symbols take. -/
def widthOf : List Symbol → Nat
  | [] => 0
  | s :: rest => s.width + widthOf rest

end Symbol

/-- The cells that a text takes. -/
def Text.width (s : String) : Nat := Symbol.widthOf (Symbol.ofChars s.toList)

end TraceViewer
