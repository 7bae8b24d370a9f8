import TraceViewer.Snippet.Error
import TraceViewer.Number.Reading
import TraceViewer.Text.Letter
import TraceViewer.Text.Search
import TraceViewer.Text.Units

/-!
From source text to tokens. The text is read from left to right; each reader takes the characters
of one token and tells what remains, together with its offset in bytes.
-/

namespace TraceViewer.Snippet

open TraceViewer.Text

/-- A place in a source text: its offset in bytes and the characters from there on. -/
structure Place where
  offset : Nat
  rest : List Char

/-- The place after some characters that were just read, before `rest`. -/
def Place.past (p : Place) (taken : List Char) (rest : List Char) : Place :=
  ⟨p.offset + byteLength taken, rest⟩

def Place.ofText (s : String) : Place := ⟨0, s.toList⟩

abbrev Lexing (α : Type) := Except Error (α × Place)

def isIdentStart (c : Char) : Bool := isAlphabetic c || c == '_' || c == '$'

def isIdentChar (c : Char) : Bool := isAlphanumeric c || c == '_' || c == '$'

/-! ## Blanks and comments -/

/-- The characters up to the end of the line. -/
def skipLine (offset : Nat) : List Char → Place
  | [] => ⟨offset, []⟩
  | c :: rest => if c == '\n' then ⟨offset, c :: rest⟩ else skipLine (offset + c.utf8Size) rest

theorem skipLine_length (offset : Nat) (cs : List Char) :
    (skipLine offset cs).rest.length ≤ cs.length := by
  induction cs generalizing offset with
  | nil => simp [skipLine]
  | cons c rest ih =>
    simp only [skipLine]
    split
    · simp
    · exact Nat.le_succ_of_le (ih _)

theorem Place.tail_lt {p : Place} {c : Char} {rest : List Char} (h : p.rest = c :: rest) :
    rest.length < p.rest.length := by
  simp [h]

theorem skipLine_lt {p : Place} {c d : Char} {rest : List Char} (offset : Nat)
    (h : p.rest = c :: d :: rest) : (skipLine offset rest).rest.length < p.rest.length := by
  have := skipLine_length offset rest
  simp only [h, List.length_cons]
  omega

theorem cutAt?_lt {p : Place} {c d : Char} {needle rest inside after : List Char}
    (hcut : cutAt? needle rest = some (inside, after)) (h : p.rest = c :: d :: rest) :
    after.length < p.rest.length := by
  simp only [h, eq_of_cutAt? hcut, List.length_cons, List.length_append]
  omega

/-- Skips blanks and comments. -/
def skipTrivia (p : Place) : Except Error Place :=
  match h : p.rest with
  | '/' :: '/' :: rest =>
    have := skipLine_lt (p.offset + 2) h
    skipTrivia (skipLine (p.offset + 2) rest)
  | '/' :: '*' :: rest =>
    match hcut : cutAt? ['*', '/'] rest with
    | some (inside, after) =>
      have := cutAt?_lt hcut h
      skipTrivia ⟨p.offset + byteLength inside + 4, after⟩
    -- the error points at the start of the comment, not at the end of the text
    | none => .error (.badSource p.offset .unterminatedComment)
  | c :: rest =>
    if isBlank c then
      have := Place.tail_lt h
      skipTrivia ⟨p.offset + c.utf8Size, rest⟩
    else .ok p
  | [] => .ok p
termination_by p.rest.length

/-! ## Numbers and names -/

/-- The greatest number that a hexadecimal literal may write. -/
def maxHexLiteral : Nat := 0x7fffffffffffffff

def isHexDigit (c : Char) : Bool := (hexDigit? c).isSome

/-- The exponent of a decimal literal, when there is one with digits. -/
def exponentOf : List Char → List Char × List Char
  | e :: rest =>
    let (sign, digits) :=
      match rest with
      | '+' :: digits => (['+'], digits)
      | '-' :: digits => (['-'], digits)
      | digits => ([], digits)
    let taken := digits.takeWhile Number.isDigit
    if (e == 'e' || e == 'E') && !taken.isEmpty then
      (e :: sign ++ taken, digits.dropWhile Number.isDigit)
    else ([], e :: rest)
  | [] => ([], [])

/-- The characters of a decimal literal and what follows them. -/
def decimalOf (cs : List Char) : List Char × List Char :=
  let whole := cs.takeWhile Number.isDigit
  let (places, rest) :=
    match cs.dropWhile Number.isDigit with
    | '.' :: rest => ('.' :: rest.takeWhile Number.isDigit, rest.dropWhile Number.isDigit)
    | rest => ([], rest)
  let (exponent, rest) := exponentOf rest
  (whole ++ places ++ exponent, rest)

/-- A number: hexadecimal digits after "0x", or a decimal literal. -/
def readNumber (p : Place) : Lexing Lexeme :=
  let decimal : Lexing Lexeme :=
    let (taken, rest) := decimalOf p.rest
    match Number.decimal? taken with
    | some x => .ok (.number x, p.past taken rest)
    | none => .error (.badSource p.offset .badNumberLiteral)
  match p.rest with
  | '0' :: x :: rest =>
    if x == 'x' || x == 'X' then
      let digits := rest.takeWhile isHexDigit
      let n := hexValue (.ofList digits)
      if digits.isEmpty || maxHexLiteral < n then .error (.badSource p.offset .badHexLiteral)
      else .ok (.number (Number.ofNat n), p.past ('0' :: x :: digits) (rest.dropWhile isHexDigit))
    else decimal
  | _ => decimal

/-- The longest run of identifier characters. -/
def readName (p : Place) : Lexeme × Place :=
  let taken := p.rest.takeWhile isIdentChar
  (.name (.ofList taken), p.past taken (p.rest.dropWhile isIdentChar))

/-! ## Strings and templates -/

/-- The character that four characters after "\u" write: hexadecimal digits, the first of which may
be a plus sign instead. -/
def codeUnit? (a b c d : Char) : Option Char :=
  -- the integer reader behind this escape accepts a sign
  let digits := if a == '+' then [b, c, d] else [a, b, c, d]
  if digits.all isHexDigit then
    let n := hexValue (.ofList digits)
    if n < 0xd800 || 0xdfff < n then some (Char.ofNat n) else none
  else none

/-- The escape after a backslash. `fault` is what a text that ends here lacks, at offset `start`. -/
def readEscape (start : Nat) (fault : SourceFault) (p : Place) : Lexing Char :=
  match p.rest with
  | [] => .error (.badSource start fault)
  | 'n' :: rest => .ok ('\n', ⟨p.offset + 1, rest⟩)
  | 't' :: rest => .ok ('\t', ⟨p.offset + 1, rest⟩)
  | 'r' :: rest => .ok ('\r', ⟨p.offset + 1, rest⟩)
  | '0' :: rest => .ok ('\x00', ⟨p.offset + 1, rest⟩)
  | 'u' :: rest =>
    match rest with
    | a :: b :: c :: d :: rest =>
      match codeUnit? a b c d with
      | some decoded => .ok (decoded, ⟨p.offset + 5, rest⟩)
      | none => .error (.badSource (p.offset + 1) .badUnicodeEscape)
    | _ => .error (.badSource (p.offset + 1) .badUnicodeEscape)
  | c :: rest => .ok (c, ⟨p.offset + c.utf8Size, rest⟩)

theorem readEscape_length {start : Nat} {fault : SourceFault} {p q : Place} {c : Char}
    (h : readEscape start fault p = .ok (c, q)) : q.rest.length < p.rest.length := by
  unfold readEscape at h
  split at h
  · simp at h
  all_goals try (rename_i hrest; simp at h; obtain ⟨-, rfl⟩ := h; simp [hrest])
  rename_i hrest
  split at h
  · split at h
    · simp at h
      obtain ⟨-, rfl⟩ := h
      simp [hrest]
      omega
    · simp at h
  · simp at h

/-- The rest of a string after its opening quote; `start` is the offset of that quote. -/
def readString (start : Nat) (quote : Char) (acc : List Char) (p : Place) : Lexing (List Char) :=
  match h : p.rest with
  | [] => .error (.badSource start .unterminatedString)
  | c :: rest =>
    let after : Place := ⟨p.offset + c.utf8Size, rest⟩
    if c == quote then .ok (acc.reverse, after)
    -- only an escape brings a line break into a string
    else if c == '\n' then .error (.badSource start .unterminatedString)
    else if c == '\\' then
      match hesc : readEscape start .unterminatedString after with
      | .ok (decoded, q) =>
        have : q.rest.length < p.rest.length := by
          have := readEscape_length hesc
          rw [h]; simp [after] at this ⊢; omega
        readString start quote (decoded :: acc) q
      | .error e => .error e
    else
      have : rest.length < p.rest.length := by rw [h]; simp
      readString start quote (c :: acc) after
termination_by p.rest.length

theorem readString_length {start : Nat} {quote : Char} {acc s : List Char} {p q : Place}
    (h : readString start quote acc p = .ok (s, q)) : q.rest.length < p.rest.length := by
  fun_induction readString start quote acc p with
  | case1 => simp at h
  | case2 acc p c rest hrest after hquote =>
    simp at h
    obtain ⟨-, rfl⟩ := h
    simp [hrest, after]
  | case3 => simp at h
  | case4 acc p c rest hrest after _ _ _ decoded r hesc hlt ih =>
    exact Nat.lt_trans (ih h) hlt
  | case5 => simp at h
  | case6 acc p c rest hrest after _ _ _ hlt ih =>
    exact Nat.lt_trans (ih h) hlt

/-- What surrounds a place inside a substitution, innermost first: code with a number of open
braces, or the text of a template. -/
inductive Surround where
  | code (braces : Nat)
  | text
  deriving Repr, DecidableEq

/-- The place after the next character, if there is one. -/
def Place.dropNext (p : Place) : Place :=
  match p.rest with
  | [] => p
  | c :: rest => ⟨p.offset + c.utf8Size, rest⟩

theorem Place.dropNext_length (p : Place) : p.dropNext.rest.length ≤ p.rest.length := by
  unfold dropNext
  split <;> simp_all

/-- Skips the body of a substitution: the place of its closing brace and the place after it.
`start` is the offset of the template. -/
def skipHole (start : Nat) (stack : List Surround) (p : Place) : Except Error (Place × Place) :=
  match h : p.rest with
  | [] => .error (.badSource start .unterminatedTemplate)
  | c :: rest =>
    let after : Place := ⟨p.offset + c.utf8Size, rest⟩
    have hafter : after.rest.length < p.rest.length := by rw [h]; simp [after]
    have hnext : after.dropNext.rest.length < p.rest.length :=
      Nat.lt_of_le_of_lt after.dropNext_length hafter
    match stack with
    | [] => .ok (p, after)
    | .code braces :: outer =>
      -- a brace inside a string does not count
      if c == '"' || c == '\'' then
        match hstr : readString p.offset c [] after with
        | .ok (_, q) =>
          have : q.rest.length < p.rest.length := Nat.lt_trans (readString_length hstr) hafter
          skipHole start stack q
        | .error e => .error e
      else if c == '\x60' then skipHole start (.text :: stack) after
      else if c == '\x7b' then skipHole start (.code (braces + 1) :: outer) after
      else if c == '\x7d' then
        if 1 < braces then skipHole start (.code (braces - 1) :: outer) after
        -- the brace that opened this code is closed: of the hole itself, or of one in a template
        -- inside it
        else if outer.isEmpty then .ok (p, after)
        else skipHole start outer after
      else skipHole start stack after
    | .text :: outer =>
      if c == '\\' then skipHole start stack after.dropNext
      else if c == '\x60' then skipHole start outer after
      else if c == '$' && after.rest.head? == some '\x7b' then
        skipHole start (.code 1 :: stack) after.dropNext
      else skipHole start stack after
termination_by p.rest.length

theorem skipHole_length {start : Nat} {stack : List Surround} {p close q : Place}
    (h : skipHole start stack p = .ok (close, q)) : q.rest.length < p.rest.length := by
  fun_induction skipHole start stack p with
  | case1 => cases h
  | case2 p c rest hrest after hafter =>
    obtain ⟨-, rfl⟩ := Prod.mk.inj (Except.ok.inj h)
    exact hafter
  | case3 p c rest hrest after hafter _ braces outer hquote s r hstr hlt =>
    rename_i ih
    exact Nat.lt_trans (ih h) hlt
  | case4 => cases h
  | case8 p c rest hrest after hafter =>
    obtain ⟨-, rfl⟩ := Prod.mk.inj (Except.ok.inj h)
    exact hafter
  | case11 p c rest hrest after _ hnext =>
    rename_i ih
    exact Nat.lt_trans (ih h) hnext
  | case13 p c rest hrest after _ hnext =>
    rename_i ih
    exact Nat.lt_trans (ih h) hnext
  -- in the other cases one character is skipped
  | _ p c rest hrest after hafter =>
    rename_i ih
    exact Nat.lt_trans (ih h) hafter

/-- The rest of a template after its opening mark or after a hole: the parts and the holes read so
far stand in reverse, and so do the characters of the current part. -/
def readTemplate (start : Nat) (parts : List String) (holes : List Hole) (acc : List Char)
    (p : Place) : Lexing Lexeme :=
  match h : p.rest with
  | [] => .error (.badSource start .unterminatedTemplate)
  | c :: rest =>
    let after : Place := ⟨p.offset + c.utf8Size, rest⟩
    have hafter : after.rest.length < p.rest.length := by rw [h]; simp [after]
    if c == '\x60' then
      .ok (.template ((String.ofList acc.reverse :: parts).reverse) holes.reverse, after)
    else if c == '$' && after.rest.head? == some '\x7b' then
      let body := after.dropNext
      match hhole : skipHole start [.code 1] body with
      | .ok (close, q) =>
        have : q.rest.length < p.rest.length :=
          Nat.lt_trans (skipHole_length hhole)
            (Nat.lt_of_le_of_lt after.dropNext_length hafter)
        let source := body.rest.take (body.rest.length - close.rest.length)
        readTemplate start (String.ofList acc.reverse :: parts)
          (⟨body.offset, String.ofList source⟩ :: holes) [] q
      | .error e => .error e
    else if c == '\\' then
      match hesc : readEscape start .unterminatedTemplate after with
      | .ok (decoded, q) =>
        have : q.rest.length < p.rest.length := Nat.lt_trans (readEscape_length hesc) hafter
        readTemplate start parts holes (decoded :: acc) q
      | .error e => .error e
    else readTemplate start parts holes (c :: acc) after
termination_by p.rest.length

/-! ## Regular expressions and punctuation -/

/-- The body of a regular expression after its opening slash, up to the slash that closes it
outside brackets; `start` is the offset of the first slash. -/
def readPatternBody (start : Nat) (inClass : Bool) (acc : List Char) (offset : Nat) :
    List Char → Lexing (List Char)
  | [] => .error (.badSource start .unterminatedPattern)
  | ['\\'] => .error (.badSource start .unterminatedPattern)
  | '\\' :: c :: rest =>
    readPatternBody start inClass (c :: '\\' :: acc) (offset + 1 + c.utf8Size) rest
  | c :: rest =>
    if c == '\n' then .error (.badSource start .unterminatedPattern)
    else if c == '/' && !inClass then .ok (acc.reverse, ⟨offset + 1, rest⟩)
    else
      -- inside brackets a slash is a character like any other
      readPatternBody start (c == '[' || (inClass && c != ']')) (c :: acc) (offset + c.utf8Size)
        rest

/-- A regular expression literal and the letters of its flags. -/
def readPattern (p : Place) : Lexing Lexeme :=
  match readPatternBody p.offset false [] (p.offset + 1) (p.rest.drop 1) with
  | .error e => .error e
  | .ok (body, q) =>
    let flags := q.rest.takeWhile Char.isAlpha
    .ok (.pattern (.ofList body) (.ofList flags), q.past flags (q.rest.dropWhile Char.isAlpha))

/-- Whether punctuation stands at the start of a text. A question mark with a dot and a digit
belongs to a conditional whose next part is a number. -/
def Punct.startsAt? (p : Punct) (cs : List Char) : Option (List Char) :=
  match stripStart? p.spelling.toList cs with
  | none => none
  | some rest =>
    if p = .optionalDot ∧ rest.head?.any Number.isDigit then none else some rest

/-- The longest punctuation at the start of a text, with what follows it. -/
def punctAt? (cs : List Char) : Option (Punct × List Char) :=
  Punct.all.findSome? fun p => (p.startsAt? cs).map fun rest => (p, rest)

def readPunct (p : Place) : Lexing Lexeme :=
  match punctAt? p.rest with
  | some (punct, rest) => .ok (.punct punct, p.past punct.spelling.toList rest)
  | none => .error (.badSource p.offset (.unexpectedChar (p.rest.head?.getD '?')))

/-! ## Token by token -/

/-- Whether a slash after the given token starts a regular expression: it does not after what ends
a value. -/
def Lexeme.allowsPattern : Lexeme → Bool
  | .number _ | .text _ | .pattern _ _ | .template _ _ | .finish => false
  | .name spelling => spelling == "return" || spelling == "typeof"
  | .punct p => !(p = .parenClose ∨ p = .bracketClose ∨ p = .plusPlus ∨ p = .minusMinus)

/-- Reads the token that starts at a place, `previous` being the one before it. -/
def readLexeme (previous : Option Lexeme) (p : Place) (c : Char) (next : Option Char) :
    Lexing Lexeme :=
  if Number.isDigit c || (c == '.' && next.any Number.isDigit) then readNumber p
  else if c == '"' || c == '\'' then
    match readString p.offset c [] ⟨p.offset + 1, p.rest.drop 1⟩ with
    | .ok (s, q) => .ok (.text (.ofList s), q)
    | .error e => .error e
  else if c == '\x60' then readTemplate p.offset [] [] [] ⟨p.offset + 1, p.rest.drop 1⟩
  else if isIdentStart c then .ok (readName p)
  else if c == '/' && previous.all Lexeme.allowsPattern then readPattern p
  else readPunct p

/-- Reads tokens up to the end of the text, which gives a last token of its own. The tokens read so
far stand in reverse; `bound` is more than the number of characters left. -/
def tokensFrom : Nat → List Token → Place → Except Error (List Token)
  | 0, acc, p => .ok ((⟨.finish, p.offset⟩ :: acc).reverse)
  | bound + 1, acc, p =>
    match skipTrivia p with
    | .error e => .error e
    | .ok p =>
      match p.rest with
      | [] => .ok ((⟨.finish, p.offset⟩ :: acc).reverse)
      | c :: rest =>
        -- the token before decides whether a slash divides or opens a pattern
        match readLexeme (acc.head?.map Token.lexeme) p c rest.head? with
        | .error e => .error e
        | .ok (lexeme, q) => tokensFrom bound (⟨lexeme, p.offset⟩ :: acc) q

/-- The tokens of a source text. -/
def tokenize (source : String) : Except Error (List Token) :=
  let p := Place.ofText source
  tokensFrom (p.rest.length + 1) [] p

end TraceViewer.Snippet
