import TraceViewer.Regex.Pattern
import TraceViewer.Text.Search

/-!
Reading the text of a regular expression. The text is read once from left to right with a stack of
open groups; flags are resolved on the way, so that the pattern no longer depends on them.
-/

namespace TraceViewer.Regex

open TraceViewer.Text

/-- Why a text is no regular expression. -/
inductive PatternFault where
  | nothingToRepeat
  | badRepetition
  | unopenedGroup
  | unclosedGroup
  | unclosedClass
  | badClassRange
  | badClassEscape
  | badEscape
  | badHex
  | backReference
  | lookAround
  | badFlags
  | badGroupName
  | unknownProperty
  | notText
  | tooDeep
  | tooLarge
  deriving Repr, DecidableEq

/-- What the flags of a pattern change. -/
structure Flags where
  ignoreCase : Bool := false
  multiLine : Bool := false
  dotAll : Bool := false
  lazyFirst : Bool := false
  unicode : Bool := true
  crlf : Bool := false
  spaced : Bool := false

/-- Sets the flag of one letter. -/
def Flags.set? (flags : Flags) (letter : Char) (on : Bool) : Option Flags :=
  match letter with
  | 'i' => some { flags with ignoreCase := on }
  | 'm' => some { flags with multiLine := on }
  | 's' => some { flags with dotAll := on }
  | 'U' => some { flags with lazyFirst := on }
  | 'u' => some { flags with unicode := on }
  | 'R' => some { flags with crlf := on }
  | 'x' => some { flags with spaced := on }
  | _ => none

/-- The rest of a text and what was read before it. -/
abbrev Reading (α : Type) := Except PatternFault (α × List Char)

/-- Drops blanks and comments, which run from "#" to the end of the line. -/
def skipSpaced (inComment : Bool) : List Char → List Char
  | [] => []
  | c :: rest =>
    if inComment then skipSpaced (c != '\n') rest
    else if c == '#' then skipSpaced true rest
    else if isBlank c then skipSpaced false rest
    else c :: rest

/-- Drops what the flag for spaced patterns makes meaningless. -/
def Flags.skip (flags : Flags) (cs : List Char) : List Char :=
  if flags.spaced then skipSpaced false cs else cs

/-! ## Escapes -/

/-- What an escape stands for. -/
inductive Escaped where
  | char (c : Char)
  | set (c : CharClass)
  | look (l : Look)

/-- The character of a code point; surrogates have none. -/
def scalar? (n : Nat) : Except PatternFault Char :=
  if n < 0xd800 || (0xdfff < n && n ≤ 0x10ffff) then .ok (Char.ofNat n) else .error .badHex

/-- Exactly `count` hexadecimal digits after the number `acc`. -/
def readHexDigits (flags : Flags) (acc : Nat) : Nat → List Char → Reading Nat
  | 0, cs => .ok (acc, cs)
  | _ + 1, [] => .error .badHex
  | count + 1, c :: rest =>
    match hexDigit? c with
    | some d => readHexDigits flags (acc * 16 + d) count (flags.skip rest)
    | none => .error .badHex

/-- The text up to a closing brace. -/
def readBraced (flags : Flags) (cs : List Char) : Reading (List Char) :=
  let rec go (acc : List Char) : Nat → List Char → Reading (List Char)
    | 0, _ => .error .badEscape
    | _, [] => .error .badEscape
    | bound + 1, c :: rest =>
      if c == '\x7d' then .ok (acc.reverse, rest) else go (c :: acc) bound (flags.skip rest)
  go [] (cs.length + 1) (flags.skip cs)

/-- A code point in hexadecimal: `count` digits, or any number of them in braces. -/
def readHex (flags : Flags) (count : Nat) (cs : List Char) : Reading Char :=
  match flags.skip cs with
  | '\x7b' :: rest =>
    match readBraced flags rest with
    | .error e => .error e
    | .ok (digits, rest) =>
      if digits.isEmpty || !digits.all (fun c => (hexDigit? c).isSome) then .error .badHex
      else
        let significant := digits.dropWhile (· == '0')
        if 8 < significant.length then .error .badHex
        else (scalar? (hexValue (.ofList digits))).map fun c => (c, flags.skip rest)
  | cs =>
    match readHexDigits flags 0 count cs with
    | .error e => .error e
    | .ok (n, rest) => (scalar? n).map fun c => (c, rest)

/-- Splits a property at the first of its separators "!=", ":" and "=", looked for in that order. -/
def propertyOf? (name : List Char) : Option (CharClass × Bool) :=
  let named (negated : Bool) (cut : List Char × List Char) : Option (CharClass × Bool) :=
    (propertyValue? (.ofList cut.1) (.ofList cut.2)).map fun p => (.having p, negated)
  match cutAt? ['!', '='] name with
  | some cut => named true cut
  | none =>
    match cutAt? [':'] name with
    | some cut => named false cut
    | none =>
      match cutAt? ['='] name with
      | some cut => named false cut
      | none => (property? (.ofList name)).map fun p => (.having p, false)

/-- A class of a Unicode property after its letter. -/
def readProperty (flags : Flags) (negated : Bool) (cs : List Char) : Reading Escaped :=
  let name : Reading (List Char) :=
    match flags.skip cs with
    | [] => .error .badEscape
    | '\x7b' :: rest => readBraced flags rest
    | '\\' :: _ => .error .badEscape
    | c :: rest => .ok ([c], flags.skip rest)
  match name with
  | .error e => .error e
  | .ok (name, rest) =>
    if !flags.unicode then .error .notText
    else
      match propertyOf? name with
      | none => .error .unknownProperty
      | some (set, reversed) => .ok (.set (if negated != reversed then .not set else set), rest)

/-- The class of a letter escape such as a digit, and its complement for the capital letter. -/
def shorthand (flags : Flags) (letter : Char) : Except PatternFault CharClass :=
  let set :=
    if flags.unicode then
      if letter.toLower == 'd' then .digit else if letter.toLower == 's' then .space else .word
    else
      ((if letter.toLower == 'd' then asciiClass? "digit"
        else if letter.toLower == 's' then asciiClass? "space"
        else asciiClass? "word").getD .none)
  if letter.isUpper then if flags.unicode then .ok (.not set) else .error .notText else .ok set

/-- The characters that have a meaning of their own in patterns. -/
def isMeta (c : Char) : Bool :=
  ['\\', '.', '+', '*', '?', '(', ')', '|', '[', ']', '\x7b', '\x7d', '^', '$', '#', '&', '-',
    '~'].contains c

/-- The kinds of word boundary that braces name. -/
def boundary? (name : List Char) : Option Look :=
  if name == "start".toList then some .wordStart
  else if name == "end".toList then some .wordEnd
  else if name == "start-half".toList then some .wordStartHalf
  else if name == "end-half".toList then some .wordEndHalf
  else none

/-- What may follow "\b": the name of a kind of boundary in braces. Braces that do not begin with a
letter or a hyphen are a repetition instead. -/
def readBoundary (flags : Flags) (cs : List Char) : Reading Escaped :=
  let isNameChar (c : Char) : Bool := c.isAlpha || c == '-'
  match cs with
  | '\x7b' :: rest =>
    match flags.skip rest with
    | [] => .error .badEscape
    | c :: more =>
      if !isNameChar c then .ok (.look .wordBoundary, cs)
      else
        let visible := (c :: more).filter fun c => !(flags.spaced && isBlank c)
        let name := visible.takeWhile isNameChar
        match (c :: more).dropWhile (fun c => isNameChar c || (flags.spaced && isBlank c)) with
        | '\x7d' :: rest =>
          match boundary? name with
          | some l => .ok (.look l, rest)
          | none => .error .badEscape
        | _ => .error .badEscape
  | _ => .ok (.look .wordBoundary, cs)

/-- An escape after its backslash. -/
def readEscape (flags : Flags) : List Char → Reading Escaped
  | [] => .error .badEscape
  | c :: rest =>
    let hex (count : Nat) : Reading Escaped :=
      match readHex flags count rest with
      | .error e => .error e
      | .ok (h, rest) =>
        if !flags.unicode && c == 'x' && 0x7f < h.toNat then .error .notText
        else .ok (.char h, rest)
    if c.isDigit then .error .backReference
    else if c == 'x' then hex 2
    else if c == 'u' then hex 4
    else if c == 'U' then hex 8
    else if c == 'p' || c == 'P' then readProperty flags (c == 'P') rest
    else if ['d', 's', 'w', 'D', 'S', 'W'].contains c then
      (shorthand flags c).map fun set => (.set set, rest)
    else if isMeta c then .ok (.char c, rest)
    else if c.toNat < 0x80 && !c.isAlphanum && c != '<' && c != '>' then .ok (.char c, rest)
    else if c == 'a' then .ok (.char '\x07', rest)
    else if c == 'f' then .ok (.char '\x0c', rest)
    else if c == 't' then .ok (.char '\t', rest)
    else if c == 'n' then .ok (.char '\n', rest)
    else if c == 'r' then .ok (.char '\r', rest)
    else if c == 'v' then .ok (.char '\x0b', rest)
    else if c == 'A' then .ok (.look .textStart, rest)
    else if c == 'z' then .ok (.look .textEnd, rest)
    else if c == 'b' then readBoundary flags rest
    else if c == 'B' then .ok (.look .noWordBoundary, rest)
    else if c == '<' then .ok (.look .wordStart, rest)
    else if c == '>' then .ok (.look .wordEnd, rest)
    else .error .badEscape

/-! ## Bracketed classes -/

/-- The operations that join two parts of a bracketed class. -/
inductive SetOp where
  | inter
  | diff
  | symmDiff

/-- A class closed under case when the flags say so. -/
def Flags.closed (flags : Flags) (set : CharClass) : CharClass :=
  if flags.ignoreCase then
    if flags.unicode then .ignoringCase set
    else .having fun c =>
      set.contains c || (c.toNat < 0x80 && (set.contains c.toLower || set.contains c.toUpper))
  else set

/-- The class before an operation joined with the class after it. -/
def Flags.joined (flags : Flags) (before : Option (SetOp × CharClass)) (set : CharClass) :
    CharClass :=
  match before with
  | none => set
  | some (op, left) =>
    let left := flags.closed left
    let right := flags.closed set
    match op with
    | .inter => .inter left right
    | .diff => .diff left right
    | .symmDiff => .symmDiff left right

/-- A named class of ASCII after its opening bracket. -/
def readAsciiClass? (cs : List Char) : Option (CharClass × List Char) :=
  match cs with
  | ':' :: rest =>
    let (negated, rest) :=
      match rest with
      | '^' :: rest => (true, rest)
      | rest => (false, rest)
    match cutAt? [':'] rest with
    | some (name, ']' :: rest) =>
      (asciiClass? (.ofList name)).map fun set => (if negated then .not set else set, rest)
    | _ => none
  | _ => none

/-- One character or escape inside brackets. -/
def readClassAtom (flags : Flags) : List Char → Reading Escaped
  | [] => .error .unclosedClass
  | '\\' :: rest => readEscape flags rest
  | c :: rest => .ok (.char c, rest)

/-- A single item inside brackets: a range, a character or a class. -/
def readClassItem (flags : Flags) (cs : List Char) : Reading CharClass :=
  match readClassAtom flags cs with
  | .error e => .error e
  | .ok (first, rest) =>
    let alone (rest : List Char) : Reading CharClass :=
      match first with
      | .char c => .ok (.ofChar c, rest)
      | .set s => .ok (s, rest)
      | .look _ => .error .badClassEscape
    match flags.skip rest with
    | [] => .error .unclosedClass
    | '-' :: more =>
      match flags.skip more with
      | [] => .error .unclosedClass
      | ']' :: _ => alone ('-' :: more)
      | '-' :: _ => alone ('-' :: more)
      | more =>
        match readClassAtom flags more with
        | .error e => .error e
        | .ok (second, rest) =>
          match first, second with
          | .char low, .char high =>
            if low ≤ high then .ok (.range low high, rest) else .error .badClassRange
          | _, _ => .error .badClassRange
    | rest => alone rest

/-- The hyphens at the start of a bracket, which stand for themselves. -/
def readHyphens (flags : Flags) (set : CharClass) : Nat → List Char → CharClass × List Char
  | bound + 1, '-' :: rest => readHyphens flags (.union set (.ofChar '-')) bound (flags.skip rest)
  | _, cs => (set, cs)

mutual

/-- A bracketed class after its opening bracket, with at most `bound` characters and nested
brackets to read. -/
def readBracket (flags : Flags) : Nat → List Char → Reading CharClass
  | 0, _ => .error .unclosedClass
  | bound + 1, cs =>
    let (negated, cs) :=
      match flags.skip cs with
      | '^' :: rest => (true, flags.skip rest)
      | rest => (false, rest)
    let (set, afterHyphens) := readHyphens flags .none (cs.length + 1) cs
    match afterHyphens with
    | [] => .error .unclosedClass
    | c :: rest =>
      if c == ']' && afterHyphens.length == cs.length then
        readUnion flags negated bound none (.ofChar ']') rest
      else readUnion flags negated bound none set afterHyphens

/-- The items of a bracketed class up to its closing bracket. -/
def readUnion (flags : Flags) (negated : Bool) :
    Nat → Option (SetOp × CharClass) → CharClass → List Char → Reading CharClass
  | 0, _, _, _ => .error .unclosedClass
  | bound + 1, before, set, cs =>
    let operation (op : SetOp) (rest : List Char) : Reading CharClass :=
      readUnion flags negated bound (some (op, flags.joined before set)) .none rest
    match flags.skip cs with
    | [] => .error .unclosedClass
    | '[' :: rest =>
      match readAsciiClass? rest with
      | some (named, rest) => readUnion flags negated bound before (.union set named) rest
      | none =>
        match readBracket flags bound rest with
        | .error e => .error e
        | .ok (inner, rest) => readUnion flags negated bound before (.union set inner) rest
    | ']' :: rest =>
      let whole := flags.closed (flags.joined before set)
      .ok (if negated then .not whole else whole, rest)
    | '&' :: '&' :: rest => operation .inter rest
    | '-' :: '-' :: rest => operation .diff rest
    | '~' :: '~' :: rest => operation .symmDiff rest
    | cs =>
      match readClassItem flags cs with
      | .error e => .error e
      | .ok (item, rest) => readUnion flags negated bound before (.union set item) rest

end

/-! ## Groups and repetitions -/

/-- An item of a sequence. A setting of flags matches nothing and cannot be repeated. -/
inductive Item where
  | pattern (p : Pattern)
  | setting

/-- A group that is still open: what precedes it in the group around it, the flags to go back to,
and the number that it captures under. -/
structure OpenGroup where
  branches : List Pattern
  items : List Item
  flags : Flags
  capture : Option Nat

/-- A pattern read so far. Branches and items stand in reverse. -/
structure Progress where
  flags : Flags := {}
  around : List OpenGroup := []
  branches : List Pattern := []
  items : List Item := []
  groups : Nat := 0
  names : List (String × Nat) := []

/-- The pattern of the items of a branch. -/
def branchOf (items : List Item) : Pattern :=
  .ofSequence (items.reverse.filterMap fun
    | .pattern p => some p
    | .setting => none)

/-- The pattern of the current group. -/
def Progress.content (p : Progress) : Pattern :=
  .ofChoice (branchOf p.items :: p.branches).reverse

def Progress.add (p : Progress) (pattern : Pattern) : Progress :=
  { p with items := .pattern pattern :: p.items }

/-- Wraps the last item in a repetition. -/
def Progress.repeatLast (p : Progress) (least : Nat) (most : Option Nat) (greedy : Bool) :
    Except PatternFault Progress :=
  match p.items with
  | .pattern last :: items =>
    let body := .repeating last least most (greedy != p.flags.lazyFirst)
    .ok { p with items := .pattern body :: items }
  | _ => .error .nothingToRepeat

/-- The bound of a repetition, with blanks around it. -/
def readBound (flags : Flags) (cs : List Char) : Reading Nat :=
  let isInner (c : Char) : Bool := c.isDigit || (flags.spaced && isBlank c)
  let cs := cs.dropWhile isBlank
  let digits := (cs.takeWhile isInner).filter Char.isDigit
  let rest := (cs.dropWhile isInner).dropWhile isBlank
  let n := digits.foldl (fun n c => n * 10 + (c.toNat - 48)) 0
  if digits.isEmpty || 0xffffffff < n then .error .badRepetition else .ok (n, rest)

/-- A counted repetition after its opening brace: the least and the greatest count. -/
def readCounts (flags : Flags) (cs : List Char) : Reading (Nat × Option Nat) :=
  let close (least : Nat) (most : Option Nat) : List Char → Reading (Nat × Option Nat)
    | '\x7d' :: rest => .ok ((least, most), flags.skip rest)
    | _ => .error .badRepetition
  match readBound flags (flags.skip cs) with
  | .error e => .error e
  | .ok (least, ',' :: rest) =>
    match flags.skip rest with
    | '\x7d' :: rest => close least none ('\x7d' :: rest)
    | rest =>
      match readBound flags rest with
      | .error e => .error e
      | .ok (most, rest) =>
        if least ≤ most then close least (some most) rest else .error .badRepetition
  | .ok (least, rest) => close least (some least) rest

/-- Whether a question mark makes a repetition lazy. -/
def readGreed : List Char → Bool × List Char
  | '?' :: rest => (false, rest)
  | rest => (true, rest)

/-- The letters of a flag setting, up to ":" or ")", applied to the flags. A letter may stand only
once, and a hyphen must have a letter after it. -/
def readFlags (flags : Flags) (seen : List Char) (negated pending : Bool) :
    List Char → Reading Flags
  | [] => .error .badFlags
  | c :: rest =>
    if c == ':' || c == ')' then
      if pending then .error .badFlags else .ok (flags, c :: rest)
    else if seen.contains c then .error .badFlags
    else if c == '-' then readFlags flags (c :: seen) true true rest
    else
      match flags.set? c (!negated) with
      | some flags => readFlags flags (c :: seen) negated false rest
      | none => .error .badFlags

def isGroupNameStart (c : Char) : Bool := c == '_' || isAlphabetic c

def isGroupNameChar (c : Char) : Bool :=
  c == '_' || c == '.' || c == '[' || c == ']' || isAlphanumeric c

/-- The name of a group up to its closing angle. -/
def readGroupName (cs : List Char) : Reading String :=
  let name := cs.takeWhile isGroupNameChar
  match cs.dropWhile isGroupNameChar, name.head? with
  | '>' :: rest, some first =>
    if isGroupNameStart first then .ok (.ofList name, rest) else .error .badGroupName
  | _, _ => .error .badGroupName

/-- How many groups may stand inside one another. -/
def maxGroups : Nat := 250

/-- Opens a group. -/
def Progress.opened (p : Progress) (flags : Flags) (capture : Option Nat) :
    Except PatternFault Progress :=
  if maxGroups ≤ p.around.length then .error .tooDeep
  else
    let outer : OpenGroup := ⟨p.branches, p.items, p.flags, capture⟩
    .ok { p with flags := flags, around := outer :: p.around, branches := [], items := [] }

/-- Opens a group that captures, under the next number. -/
def Progress.openedCapture (p : Progress) (name : Option String) : Except PatternFault Progress :=
  let group := p.groups + 1
  let names :=
    match name with
    | some n => (n, group) :: p.names
    | none => p.names
  { p with groups := group, names := names }.opened p.flags (some group)

/-- A group or a flag setting after its opening parenthesis. -/
def Progress.readGroup (p : Progress) (cs : List Char) : Reading Progress :=
  let named (rest : List Char) : Reading Progress :=
    match readGroupName rest with
    | .error e => .error e
    | .ok (name, rest) =>
      if (p.names.lookup name).isSome then .error .badGroupName
      else (p.openedCapture (some name)).map fun p => (p, rest)
  match p.flags.skip cs with
  | '?' :: '=' :: _ => .error .lookAround
  | '?' :: '!' :: _ => .error .lookAround
  | '?' :: '<' :: '=' :: _ => .error .lookAround
  | '?' :: '<' :: '!' :: _ => .error .lookAround
  | '?' :: 'P' :: '<' :: rest => named rest
  | '?' :: '<' :: rest => named rest
  | '?' :: ')' :: _ => .error .nothingToRepeat
  | '?' :: rest =>
    match readFlags p.flags [] false false rest with
    | .error e => .error e
    | .ok (flags, ')' :: rest) =>
      .ok ({ p with flags := flags, items := .setting :: p.items }, rest)
    | .ok (flags, rest) => (p.opened flags none).map fun p => (p, rest.drop 1)
  | rest => (p.openedCapture none).map fun p => (p, rest)

/-- Closes the innermost group. -/
def Progress.closed (p : Progress) : Except PatternFault Progress :=
  match p.around with
  | [] => .error .unopenedGroup
  | outer :: around =>
    let body :=
      match outer.capture with
      | some group => .capture group p.content
      | none => p.content
    .ok { p with
      flags := outer.flags, around := around, branches := outer.branches
      items := .pattern body :: outer.items }

/-- A character that stands for itself. -/
def Flags.literal (flags : Flags) (c : Char) : Pattern := .oneOf (flags.closed (.ofChar c))

/-- Any character, but for line ends unless the flags let a dot match them. -/
def Flags.dot (flags : Flags) : Except PatternFault Pattern :=
  if !flags.unicode then .error .notText
  else if flags.dotAll then .ok (.oneOf (.not .none))
  else if flags.crlf then .ok (.oneOf (.not (.union (.ofChar '\n') (.ofChar '\r'))))
  else .ok (.oneOf (.not (.ofChar '\n')))

def Flags.caret (flags : Flags) : Look :=
  if flags.multiLine then if flags.crlf then .crlfLineStart else .lineStart else .textStart

def Flags.dollar (flags : Flags) : Look :=
  if flags.multiLine then if flags.crlf then .crlfLineEnd else .lineEnd else .textEnd

/-- Reads the next item of a pattern. -/
def Progress.step (p : Progress) (c : Char) (rest : List Char) : Reading Progress :=
  let repetition (least : Nat) (most : Option Nat) (rest : List Char) : Reading Progress :=
    let (greedy, rest) := readGreed rest
    (p.repeatLast least most greedy).map fun p => (p, rest)
  match c with
  | '(' => p.readGroup rest
  | ')' => p.closed.map fun p => (p, rest)
  | '|' => .ok ({ p with branches := branchOf p.items :: p.branches, items := [] }, rest)
  | '[' =>
    match readBracket p.flags (2 * rest.length + 2) rest with
    | .error e => .error e
    | .ok (set, rest) =>
      if !p.flags.unicode && !set.isAscii then .error .notText else .ok (p.add (.oneOf set), rest)
  | '?' => repetition 0 (some 1) rest
  | '*' => repetition 0 none rest
  | '+' => repetition 1 none rest
  | '\x7b' =>
    if p.items.isEmpty then .error .nothingToRepeat
    else
      match readCounts p.flags rest with
      | .error e => .error e
      | .ok ((least, most), rest) => repetition least most rest
  | '\\' =>
    match readEscape p.flags rest with
    | .error e => .error e
    | .ok (.char c, rest) => .ok (p.add (p.flags.literal c), rest)
    | .ok (.set s, rest) => .ok (p.add (.oneOf s), rest)
    | .ok (.look l, rest) => .ok (p.add (.look l), rest)
  | '.' => p.flags.dot.map fun d => (p.add d, rest)
  | '^' => .ok (p.add (.look p.flags.caret), rest)
  | '$' => .ok (p.add (.look p.flags.dollar), rest)
  | c => .ok (p.add (p.flags.literal c), rest)

/-- The greatest weight of a pattern that is accepted: ten MiB hold so many steps of 32 bytes,
beside those that frame every program. -/
def maxWeight : Nat := 327673

/-- Reads a whole pattern. Each step takes a character, so the number of characters bounds them. -/
def Progress.run (p : Progress) : Nat → List Char → Except PatternFault Regex
  | 0, _ => .error .tooLarge
  | bound + 1, cs =>
    match p.flags.skip cs with
    | [] =>
      if !p.around.isEmpty then .error .unclosedGroup
      else if maxWeight < p.content.weight then .error .tooLarge
      else .ok ⟨p.content, p.names⟩
    | c :: rest =>
      match p.step c rest with
      | .error e => .error e
      | .ok (p, rest) => p.run bound rest

/-- The regular expression that a text writes. -/
def read (source : String) : Except PatternFault Regex :=
  ({} : Progress).run (source.length + 1) source.toList

end TraceViewer.Regex
