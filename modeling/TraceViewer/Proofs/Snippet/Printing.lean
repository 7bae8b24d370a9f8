import TraceViewer.Number.Fixed
import TraceViewer.Proofs.Number.Exact
import TraceViewer.Proofs.Snippet.Holes
import TraceViewer.Proofs.Snippet.Numerals

/-!
# Printing expressions

A printer for syntax trees: parentheses around every operand that is not a single token, a blank
between each two tokens, and escapes in strings and templates.  The lexer reads what it writes as
the tokens that were written.
-/

namespace TraceViewer.Snippet

open TraceViewer.Text

/-! ## 1. The printer -/

/-- A character between the quotes of a string. -/
def quotedChar (c : Char) : List Char :=
  if c == '"' || c == '\\' then ['\\', c] else if c == '\n' then ['\\', 'n'] else [c]

/-- A character of a template's text. -/
def templateChar (c : Char) : List Char :=
  if c == '\x60' || c == '\\' || c == '$' then ['\\', c] else [c]

/-- The parts of a template with the sources of its holes between them, and its closing mark. -/
def templateChars : List String → List Hole → List Char
  | part :: parts, hole :: holes =>
    part.toList.flatMap templateChar ++
      '$' :: '\x7b' :: (hole.source.toList ++ '\x7d' :: templateChars parts holes)
  | parts, _ => parts.flatMap (fun part => part.toList.flatMap templateChar) ++ ['\x60']

/-- How a token is written. -/
def Lexeme.written : Lexeme → List Char
  | .number x => Nat.toDigits 10 (Number.wholePart x)
  | .text s => '"' :: (s.toList.flatMap quotedChar ++ ['"'])
  | .name word => word.toList
  | .template parts holes => '\x60' :: templateChars parts holes
  | .punct p => p.spelling.toList
  | .pattern .. | .finish => []

/-- Tokens with a blank before each. -/
def spaced (ls : List Lexeme) : List Char := ls.flatMap fun l => ' ' :: l.written

/-- Tokens with a blank between each two. -/
def joined : List Lexeme → List Char
  | [] => []
  | l :: ls => l.written ++ spaced ls

def UnaryOp.lexeme : UnaryOp → Lexeme
  | .not => .punct .bang
  | .negate => .punct .minus
  | .plus => .punct .plus
  | .kindOf => .name "typeof"

def BinaryOp.punct : BinaryOp → Punct
  | .add => .plus | .sub => .minus | .mul => .times | .div => .divide | .rem => .percent
  | .less => .less | .lessEq => .lessEq | .greater => .greater | .greaterEq => .greaterEq
  | .looseEq => .looseEq | .looseNe => .looseNe | .strictEq => .strictEq | .strictNe => .strictNe

def LogicalOp.punct : LogicalOp → Punct
  | .and => .andAnd
  | .or => .orOr
  | .nullish => .nullish

/-- The punctuation of an assignment with an operator, or without one. -/
def assignmentPunct : Option BinaryOp → Punct
  | some .add => .plusAssign
  | some .sub => .minusAssign
  | some .mul => .timesAssign
  | some .div => .divideAssign
  | some .rem => .remainderAssign
  | _ => .assign

/-- Whether an expression is a single token without parts. -/
def Expr.isAtom : Expr → Bool
  | .number _ | .text _ | .bool _ | .null | .undefined | .ident _ => true
  | _ => false

/-- The tokens of an operand: an expression with parts stands in parentheses. -/
def grouped (e : Expr) (ls : List Lexeme) : List Lexeme :=
  if e.isAtom then ls else .punct .parenOpen :: (ls ++ [.punct .parenClose])

/-- Pieces with a comma between each two. -/
def commas : List (List Lexeme) → List Lexeme
  | [] => []
  | [ls] => ls
  | ls :: rest => ls ++ .punct .comma :: commas rest

/-- The names of parameters as tokens. -/
def paramLexemes (names : List String) : List (List Lexeme) := names.map fun name => [.name name]

mutual

/-- The tokens of an expression. -/
def Expr.lexemes : Expr → List Lexeme
  | .number x => [.number x]
  | .text s => [.text s]
  | .bool b => [.name (if b then "true" else "false")]
  | .null => [.name "null"]
  | .undefined => [.name "undefined"]
  | .ident name => [.name name]
  | .array items => .punct .bracketOpen :: (commas (itemLexemes items) ++ [.punct .bracketClose])
  | .object entries =>
    .punct .braceOpen :: (commas (entryLexemes entries) ++ [.punct .braceClose])
  | .unary op operand => op.lexeme :: grouped operand operand.lexemes
  | .binary op left right =>
    grouped left left.lexemes ++ .punct op.punct :: grouped right right.lexemes
  | .logical op left right =>
    grouped left left.lexemes ++ .punct op.punct :: grouped right right.lexemes
  | .cond test yes no =>
    grouped test test.lexemes ++ .punct .question :: (grouped yes yes.lexemes ++
      .punct .colon :: grouped no no.lexemes)
  | .assign name op value =>
    .name name :: .punct (assignmentPunct op) :: grouped value value.lexemes
  | .update name increment before =>
    let sign := .punct (if increment then .plusPlus else .minusMinus)
    if before then [sign, .name name] else [.name name, sign]
  | .member object property guarded =>
    grouped object object.lexemes ++
      [.punct (if guarded then .optionalDot else .dot), .name property]
  | .index object key guarded =>
    grouped object object.lexemes ++ (if guarded then [.punct .optionalDot] else []) ++
      .punct .bracketOpen :: (grouped key key.lexemes ++ [.punct .bracketClose])
  | .call callee args guarded =>
    grouped callee callee.lexemes ++ (if guarded then [.punct .optionalDot] else []) ++
      .punct .parenOpen :: (commas (itemLexemes args) ++ [.punct .parenClose])
  | .template parts holes => [.template parts (holesOf holes)]
  | .function f => f.lexemes
  | .pattern _ => []

/-- The tokens of an arrow function with an expression for its body. -/
def Function.lexemes : Function → List Lexeme
  | .mk _ params body =>
    .punct .parenOpen :: (commas (paramLexemes params) ++
      .punct .parenClose :: .punct .arrow :: body.lexemes)

def Body.lexemes : Body → List Lexeme
  | .expr e => grouped e e.lexemes
  | .block _ => []

def itemLexemes : List Expr → List (List Lexeme)
  | [] => []
  | e :: rest => grouped e e.lexemes :: itemLexemes rest

def entryLexemes : List (String × Expr) → List (List Lexeme)
  | [] => []
  | (key, e) :: rest =>
    (.text key :: .punct .colon :: grouped e e.lexemes) :: entryLexemes rest

def holesOf : List Expr → List Hole
  | [] => []
  | e :: rest => ⟨0, .ofList (joined (grouped e e.lexemes))⟩ :: holesOf rest

end

/-- The tokens of an expression as an operand. -/
def Expr.operand (e : Expr) : List Lexeme := grouped e e.lexemes

/-- The text of an expression. -/
def print (e : Expr) : String := .ofList (joined e.lexemes)

/-- Strings and templates are escaped, and a slash stands behind a parenthesis or a word only. -/
example : print (.binary .div (.call (.ident "f") [.text "\"\n"] true)
      (.template ["a`", ""] [.update "n" true true])) =
    "( f ?. ( \"\\\"\\n\" ) ) / ( `a\\`$\x7b( ++ n )\x7d` )" := by
  decide +kernel

/-- Words that the lexer reads as one name. -/
def IsWord (word : String) : Prop :=
  ∃ c cs, word.toList = c :: cs ∧ isIdentStart c = true ∧ ∀ d ∈ cs, isIdentChar d = true

theorem isWord_iff (word : String) : IsWord word ↔
    (word.toList.head?.any isIdentStart && word.toList.tail.all isIdentChar) = true := by
  unfold IsWord
  cases word.toList with
  | nil => exact ⟨nofun, nofun⟩
  | cons c cs =>
    rw [List.head?_cons, Option.any_some, List.tail_cons, Bool.and_eq_true, List.all_eq_true]
    refine ⟨?_, fun h => ⟨c, cs, rfl, h⟩⟩
    rintro ⟨_, _, heq, h⟩
    obtain ⟨rfl, rfl⟩ := List.cons.inj heq
    exact h

instance (word : String) : Decidable (IsWord word) := decidable_of_iff _ (isWord_iff word).symm

/-- Words that name a variable. -/
def IsVariable (word : String) : Prop := IsWord word ∧ isReserved word = false

instance (word : String) : Decidable (IsVariable word) := inferInstanceAs (Decidable (_ ∧ _))

/-- The operators that an assignment can have. -/
def assigns : Option BinaryOp → Bool
  | none | some .add | some .sub | some .mul | some .div | some .rem => true
  | _ => false

mutual

/-- The expressions that can be printed.  Regular expressions and functions with a block are left
out, and numbers other than whole ones below `2 ^ 53`. -/
def Expr.IsPrintable : Expr → Prop
  | .number x => ∃ n, n < 2 ^ 53 ∧ x = Number.ofNat n
  | .text _ | .bool _ | .null | .undefined => True
  | .ident name => IsVariable name
  | .array items => ArePrintable items
  | .object entries => EntriesPrintable entries
  | .unary _ operand => operand.IsPrintable
  | .binary _ left right | .logical _ left right => left.IsPrintable ∧ right.IsPrintable
  | .cond test yes no => test.IsPrintable ∧ yes.IsPrintable ∧ no.IsPrintable
  | .assign name op value => IsVariable name ∧ assigns op = true ∧ value.IsPrintable
  | .update name _ _ => IsVariable name
  | .member object property _ => object.IsPrintable ∧ IsWord property
  | .index object key _ => object.IsPrintable ∧ key.IsPrintable
  | .call callee args _ => callee.IsPrintable ∧ ArePrintable args
  | .template parts holes => parts.length = holes.length + 1 ∧ ArePrintable holes
  | .function f => f.IsPrintable
  | .pattern _ => False

def Function.IsPrintable : Function → Prop
  | .mk name params body => name = none ∧ (∀ name ∈ params, IsVariable name) ∧ body.IsPrintable

def Body.IsPrintable : Body → Prop
  | .expr e => e.IsPrintable
  | .block _ => False

def ArePrintable : List Expr → Prop
  | [] => True
  | e :: rest => e.IsPrintable ∧ ArePrintable rest

def EntriesPrintable : List (String × Expr) → Prop
  | [] => True
  | (_, e) :: rest => e.IsPrintable ∧ EntriesPrintable rest

end

theorem itemLexemes_eq (items : List Expr) : itemLexemes items = items.map Expr.operand := by
  induction items with
  | nil => rfl
  | cons e items ih =>
    rw [itemLexemes, ih]
    rfl

/-- The tokens of an entry. -/
def entry (x : String × Expr) : List Lexeme := .text x.1 :: .punct .colon :: x.2.operand

theorem entryLexemes_eq (entries : List (String × Expr)) :
    entryLexemes entries = entries.map entry := by
  induction entries with
  | nil => rfl
  | cons x entries ih =>
    rw [entryLexemes, ih]
    rfl

theorem holesOf_eq (es : List Expr) :
    holesOf es = es.map fun e => ⟨0, .ofList (joined e.operand)⟩ := by
  induction es with
  | nil => rfl
  | cons e es ih =>
    rw [holesOf, ih]
    rfl

theorem arePrintable_iff (es : List Expr) : ArePrintable es ↔ ∀ e ∈ es, e.IsPrintable := by
  induction es with
  | nil => exact ⟨nofun, fun _ => trivial⟩
  | cons e es ih => rw [ArePrintable, ih, List.forall_mem_cons]

theorem entriesPrintable_iff (entries : List (String × Expr)) :
    EntriesPrintable entries ↔ ∀ entry ∈ entries, entry.2.IsPrintable := by
  induction entries with
  | nil => exact ⟨nofun, fun _ => trivial⟩
  | cons entry entries ih => rw [EntriesPrintable, ih, List.forall_mem_cons]

/-- The expressions right below the root. -/
def Expr.children : Expr → List Expr
  | .array items => items
  | .object entries => entries.map Prod.snd
  | .unary _ operand => [operand]
  | .binary _ left right | .logical _ left right => [left, right]
  | .cond test yes no => [test, yes, no]
  | .assign _ _ value => [value]
  | .member target _ _ => [target]
  | .index target key _ => [target, key]
  | .call callee args _ => callee :: args
  | .template _ holes => holes
  | .function (.mk _ _ (.expr e)) => [e]
  | _ => []

theorem Expr.IsPrintable.children {e : Expr} (h : e.IsPrintable) :
    ∀ d ∈ e.children, d.IsPrintable := by
  rw [← arePrintable_iff]
  cases e with
  | array items => exact h
  | object entries => exact (arePrintable_iff _).mpr (List.forall_mem_map.mpr
      ((entriesPrintable_iff entries).mp h))
  | unary op operand => exact ⟨h, trivial⟩
  | binary op left right => exact ⟨h.1, h.2, trivial⟩
  | logical op left right => exact ⟨h.1, h.2, trivial⟩
  | cond test yes no => exact ⟨h.1, h.2.1, h.2.2, trivial⟩
  | assign name op value => exact ⟨h.2.2, trivial⟩
  | member target property guarded => exact ⟨h.1, trivial⟩
  | index target key guarded => exact ⟨h.1, h.2, trivial⟩
  | call callee args guarded => exact h
  | template parts holes => exact h.2
  | function f =>
    obtain ⟨name, params, body⟩ := f
    cases body with
    | expr e => exact ⟨h.2.2, trivial⟩
    | block => exact h.2.2.elim
  | _ => trivial

theorem entriesHeight_eq (entries : List (String × Expr)) :
    entriesHeight entries = exprsHeight (entries.map Prod.snd) := by
  induction entries with
  | nil => rfl
  | cons entry entries ih => rw [entriesHeight, ih, List.map_cons, exprsHeight]

theorem Expr.IsPrintable.height_eq {e : Expr} (h : e.IsPrintable) :
    e.height = exprsHeight e.children + 1 := by
  cases e with
  | object entries => rw [Expr.height, entriesHeight_eq, Expr.children]
  | function f =>
    obtain ⟨name, params, body⟩ := f
    cases body with
    | expr e => simp only [Expr.height, Function.height, Body.height, Expr.children, exprsHeight,
        Nat.max_zero]
    | block => exact h.2.2.elim
  | _ => simp only [Expr.height, Expr.children, exprsHeight, Nat.max_zero, Nat.zero_add]

theorem height_le_exprsHeight {e : Expr} {es : List Expr} (h : e ∈ es) :
    e.height ≤ exprsHeight es := by
  induction es with
  | nil => cases h
  | cons f es ih =>
    rw [exprsHeight]
    rcases List.mem_cons.mp h with rfl | h
    · exact Nat.le_max_left ..
    · exact Nat.le_trans (ih h) (Nat.le_max_right ..)

theorem Expr.IsPrintable.height_lt {d e : Expr} (h : e.IsPrintable) (hd : d ∈ e.children) :
    d.height < e.height := by
  rw [h.height_eq]
  exact Nat.lt_succ_of_le (height_le_exprsHeight hd)

/-- What holds of a printable expression if it holds of those right below the root holds of all. -/
theorem Expr.IsPrintable.induction {P : Expr → Prop}
    (step : ∀ e, e.IsPrintable → (∀ d ∈ e.children, P d) → P e) {e : Expr} (h : e.IsPrintable) :
    P e := by
  induction hn : e.height using Nat.strongRecOn generalizing e with
  | ind n ih =>
    subst hn
    exact step e h fun d hd => ih _ (h.height_lt hd) (h.children d hd) rfl

/-! ## 2. Single tokens -/

/-- A token without the places of its holes. -/
def Lexeme.unplaced : Lexeme → Lexeme
  | .template parts holes => .template parts (holes.map fun h => ⟨0, h.source⟩)
  | l => l

def Lexeme.isSlash : Lexeme → Bool
  | .punct .divide | .punct .divideAssign => true
  | _ => false

/-- The characters are read as the token where nothing or a blank follows them. -/
def Lexeme.IsReadFrom (l : Lexeme) (cs : List Char) : Prop :=
  ∀ bound acc offset rest, Separated rest →
    (l.isSlash = true → (acc.head?.map Token.lexeme).all Lexeme.allowsPattern = false) →
    ∃ l', l'.unplaced = l ∧ tokensFrom (bound + 1) acc ⟨offset, cs ++ rest⟩ =
      tokensFrom bound (⟨l', offset⟩ :: acc) ⟨offset + byteLength cs, rest⟩

/-- The token is read back from what is written for it.  The scanner of substitutions takes its text
for what it is. -/
structure Lexeme.IsRead (l : Lexeme) : Prop where
  tokens : l.IsReadFrom l.written
  scans : ∀ n m outer, l.bracesAfter n = some m →
    Scans (.code (n + 1) :: outer) (.code (m + 1) :: outer) l.written
  written_ne : l.written ≠ []

theorem isPattern_unplaced (l : Lexeme) : l.unplaced.isPattern = l.isPattern := by
  cases l <;> rfl

theorem bracesAfter_unplaced (n : Nat) (l : Lexeme) :
    l.unplaced.bracesAfter n = l.bracesAfter n := by
  cases l <;> rfl

section FirstCharacter

variable {l : Lexeme} {c : Char} {cs : List Char} (hwritten : l.written = c :: cs)
  (hpattern : l.isPattern = false)
  (htrivia : ∀ offset rest, Separated rest →
    skipTrivia ⟨offset, c :: (cs ++ rest)⟩ = .ok ⟨offset, c :: (cs ++ rest)⟩)
  (hread : ∀ previous offset rest, Separated rest →
    (l.isSlash = true → previous.all Lexeme.allowsPattern = false) →
    ∃ l', l'.unplaced = l ∧ readLexeme previous ⟨offset, c :: (cs ++ rest)⟩ c (cs ++ rest).head? =
      .ok (l', ⟨offset + byteLength (c :: cs), rest⟩))

include htrivia hread in
/-- It is enough to know what is read at the first character. -/
theorem isReadFrom_of_readLexeme : l.IsReadFrom (c :: cs) := by
  intro bound acc offset rest hrest hslash
  obtain ⟨l', hl', hread⟩ := hread (acc.head?.map Token.lexeme) offset rest hrest hslash
  refine ⟨l', hl', ?_⟩
  rw [List.cons_append, tokensFrom, htrivia offset rest hrest]
  dsimp only
  rw [hread]

include hwritten hpattern htrivia hread in
theorem isRead_of_readLexeme : l.IsRead where
  tokens := by
    rw [hwritten]
    exact isReadFrom_of_readLexeme htrivia hread
  scans n m outer hm := by
    -- read behind a number, where a slash divides, with nothing after it
    have hslash : l.isSlash = true → (some (Lexeme.number 0)).all Lexeme.allowsPattern = false :=
      fun _ => rfl
    obtain ⟨l', hl', hread⟩ := hread (some (.number 0)) 0 [] separated_nil hslash
    obtain ⟨ds, -, hds, hscans⟩ := readLexeme_spans rfl hread
    rw [hwritten]
    have heq : c :: cs = ds := by
      have hrest := hds.rest
      rwa [List.append_nil, List.append_nil] at hrest
    rw [heq]
    refine hscans ?_ n m outer ?_
    · rw [← isPattern_unplaced, hl', hpattern]
    · rw [← bracesAfter_unplaced, hl', hm]
  written_ne := by
    rw [hwritten]
    exact List.cons_ne_nil c cs

end FirstCharacter

/-- A slash that starts no comment is kept. -/
theorem skipTrivia_slash {cs : List Char} (hline : '/' ∉ cs.head?) (hstar : '*' ∉ cs.head?)
    (offset : Nat) : skipTrivia ⟨offset, '/' :: cs⟩ = .ok ⟨offset, '/' :: cs⟩ := by
  unfold skipTrivia
  split
  · next heq =>
    obtain ⟨-, rfl⟩ := List.cons.inj heq
    exact absurd rfl hline
  · next heq =>
    obtain ⟨-, rfl⟩ := List.cons.inj heq
    exact absurd rfl hstar
  · next heq =>
    obtain ⟨rfl, rfl⟩ := List.cons.inj heq
    rw [if_neg (by decide)]
  · rfl

theorem isRead_slash {p : Punct} (hp : (Lexeme.punct p).isSlash = true) :
    (Lexeme.punct p).IsRead := by
  have hpunct {cs : List Char} (hspelling : p.spelling.toList = '/' :: cs)
      (htrivia : ∀ offset rest, Separated rest →
        skipTrivia ⟨offset, '/' :: (cs ++ rest)⟩ = .ok ⟨offset, '/' :: (cs ++ rest)⟩)
      (hread : ∀ offset rest, Separated rest → readPunct ⟨offset, '/' :: (cs ++ rest)⟩ =
        .ok (.punct p, ⟨offset + byteLength ('/' :: cs), rest⟩)) : (Lexeme.punct p).IsRead := by
    refine isRead_of_readLexeme hspelling rfl htrivia fun previous offset rest hrest hslash => ?_
    refine ⟨.punct p, rfl, ?_⟩
    show (if true && previous.all Lexeme.allowsPattern then _ else readPunct _) = _
    -- the token before allows no regular expression here
    rw [hslash hp]
    exact hread offset rest hrest
  cases p
  case divide =>
    have hspelling : Punct.divide.spelling.toList = ['/'] := rfl
    refine hpunct hspelling (fun offset rest hrest => skipTrivia_slash ?_ ?_ offset) ?_
    · exact fun h => absurd (hrest _ h) (by decide)
    · exact fun h => absurd (hrest _ h) (by decide)
    · intro offset rest hrest
      rcases hrest.cases with rfl | ⟨rest, rfl⟩ <;> rfl
  case divideAssign =>
    have hspelling : Punct.divideAssign.spelling.toList = ['/', '='] := rfl
    refine hpunct hspelling
      (fun offset rest hrest => skipTrivia_slash (by simp) (by simp) offset) ?_
    intro offset rest hrest
    rcases hrest.cases with rfl | ⟨rest, rfl⟩ <;> rfl
  all_goals cases hp

theorem isRead_punct (p : Punct) : (Lexeme.punct p).IsRead := by
  by_cases hslash : (Lexeme.punct p).isSlash = true
  · exact isRead_slash hslash
  cases p
  case divide => exact absurd rfl hslash
  case divideAssign => exact absurd rfl hslash
  all_goals
    refine isRead_of_readLexeme rfl rfl
      (fun offset rest _ => skipTrivia_stop (by decide) (by decide) offset _) ?_
    intro previous offset rest hrest _
    refine ⟨.punct _, rfl, ?_⟩
    rcases hrest.cases with rfl | ⟨rest, rfl⟩ <;> rfl

theorem isBlank_of_isIdentStart {c : Char} (hc : isIdentStart c = true) : isBlank c = false := by
  cases hblank : isBlank c with
  | false => rfl
  | true =>
    rw [isIdentStart, isAlphabetic_of_isBlank hblank] at hc
    rcases Bool.or_eq_true .. |>.mp hc with hc | hc
    · rw [eq_of_beq hc] at hblank
      cases hblank
    · rw [eq_of_beq hc] at hblank
      cases hblank

/-- A name ends before a character that belongs to none. -/
theorem readLexeme_name {previous : Option Lexeme} {offset : Nat} {c : Char} {cs rest : List Char}
    {next : Option Char} (hc : isIdentStart c = true) (hcs : ∀ d ∈ cs, isIdentChar d = true)
    (hrest : ∀ d ∈ rest.head?, isIdentChar d = false) :
    readLexeme previous ⟨offset, c :: (cs ++ rest)⟩ c next =
      .ok (.name (.ofList (c :: cs)), ⟨offset + byteLength (c :: cs), rest⟩) := by
  -- what starts the other tokens starts no name
  have hother (f : Char → Bool) (hf : ∀ c, f c = true → isIdentStart c = false) : f c = false := by
    cases hfc : f c with
    | false => rfl
    | true => rw [hf c hfc] at hc; cases hc
  have hne (d : Char) (hd : isIdentStart d = false) : (c == d) = false :=
    hother (· == d) fun e he => by rw [eq_of_beq he, hd]
  have hdigit : Number.isDigit c = false := hother _ fun _ => eq_false_of_isDigit (by decide)
  obtain ⟨htake, hdrop⟩ := takeWhile_stop
    (List.forall_mem_cons.mpr ⟨isIdentChar_of_isIdentStart hc, hcs⟩) hrest
  unfold readLexeme
  rw [hdigit, hne '.' rfl, hne '"' rfl, hne '\'' rfl, hne '\x60' rfl, hc]
  show Except.ok (readName ⟨offset, c :: (cs ++ rest)⟩) = _
  unfold readName Place.past
  dsimp only
  rw [← List.cons_append, htake, hdrop]

theorem isRead_name {word : String} (h : IsWord word) : (Lexeme.name word).IsRead := by
  obtain ⟨c, cs, hword, hc, hcs⟩ := h
  have hblank := isBlank_of_isIdentStart hc
  refine isRead_of_readLexeme hword rfl (fun offset rest _ => skipTrivia_stop hblank ?_ offset _) ?_
  · rintro rfl
    cases hc
  intro previous offset rest hrest _
  refine ⟨.name word, rfl, ?_⟩
  rw [readLexeme_name hc hcs fun d hd => by rw [hrest d hd]; rfl, ← hword, String.ofList_toList]

/-- What starts a literal is neither a blank nor a slash. -/
theorem skipTrivia_numeral (n : Numeral) {c : Char} {cs : List Char} (hchars : n.chars = c :: cs)
    (offset : Nat) (rest : List Char) :
    skipTrivia ⟨offset, c :: (cs ++ rest)⟩ = .ok ⟨offset, c :: (cs ++ rest)⟩ := by
  obtain ⟨_, _, hstart, hc⟩ := n.start
  obtain ⟨rfl, -⟩ := List.cons.inj (hchars.symm.trans hstart)
  rcases hc with hdigit | ⟨rfl, -⟩
  · exact skipTrivia_stop (eq_false_of_isDigit (by decide) hdigit)
      (fun h => by rw [h] at hdigit; cases hdigit) offset _
  · exact skipTrivia_stop (by decide) (by decide) offset _

theorem readLexeme_numeral (n : Numeral) {c : Char} {cs : List Char} (hchars : n.chars = c :: cs)
    (previous : Option Lexeme) (offset : Nat) {rest : List Char} (hrest : Separated rest) :
    readLexeme previous ⟨offset, c :: (cs ++ rest)⟩ c (cs ++ rest).head? =
      .ok (.number n.value, ⟨offset + byteLength (c :: cs), rest⟩) := by
  obtain ⟨_, _, hstart, hc⟩ := n.start
  obtain ⟨rfl, rfl⟩ := List.cons.inj (hchars.symm.trans hstart)
  have hnumber :
      (Number.isDigit c || (c == '.' && (cs ++ rest).head?.any Number.isDigit)) = true := by
    rcases hc with hdigit | ⟨rfl, hdigit⟩
    · rw [hdigit, Bool.true_or]
    · cases cs with
      | nil => cases hdigit
      | cons d cs => exact hdigit
  have hread := readNumber_chars n hrest offset
  rw [hchars] at hread
  unfold readLexeme
  rw [hnumber]
  exact hread

theorem isReadFrom_numeral (n : Numeral) : (Lexeme.number n.value).IsReadFrom n.chars := by
  obtain ⟨c, cs, hchars, -⟩ := n.start
  rw [hchars]
  exact isReadFrom_of_readLexeme (fun offset rest _ => skipTrivia_numeral n hchars offset rest)
    fun previous offset rest hrest _ => ⟨_, rfl, readLexeme_numeral n hchars previous offset hrest⟩

/-- The digits of a whole number as a literal. -/
def digitsNumeral (n : Nat) : Numeral :=
  .decimal ⟨Nat.toDigits 10 n, none, none, fun _ => Number.isDigit_of_mem_toDigits, nofun,
    .inl Nat.toDigits_ne_nil⟩

theorem chars_digitsNumeral (n : Nat) : (digitsNumeral n).chars = Nat.toDigits 10 n :=
  List.append_nil _

theorem value_digitsNumeral {n : Nat} (hn : n < 2 * Number.leadingBit) :
    (digitsNumeral n).value = Number.ofNat n := by
  have hvalue : Number.decimal? (digitsNumeral n).chars = some (digitsNumeral n).value :=
    decimal?_chars _
  rw [chars_digitsNumeral, Number.decimal?_toDigits hn] at hvalue
  exact (Option.some.inj hvalue).symm

theorem isRead_number {n : Nat} (hn : n < 2 ^ 53) : (Lexeme.number (Number.ofNat n)).IsRead := by
  have hn : n < 2 * Number.leadingBit := hn
  obtain ⟨c, cs, hchars, -⟩ := (digitsNumeral n).start
  have hwritten : (Lexeme.number (Number.ofNat n)).written = c :: cs := by
    rw [Lexeme.written, Number.wholePart_ofNat hn, ← chars_digitsNumeral, hchars]
  refine isRead_of_readLexeme hwritten rfl
    (fun offset rest _ => skipTrivia_numeral _ hchars offset rest)
    fun previous offset rest hrest _ => ⟨.number (Number.ofNat n), rfl, ?_⟩
  rw [← value_digitsNumeral hn]
  exact readLexeme_numeral _ hchars previous offset hrest

/-- The quotes that a string can stand between. -/
inductive Quote where
  | single
  | double

namespace Quote

def char : Quote → Char
  | .single => '\''
  | .double => '"'

/-- A character between such quotes. -/
def escaped (q : Quote) (c : Char) : List Char :=
  if c == q.char || c == '\\' then ['\\', c] else if c == '\n' then ['\\', 'n'] else [c]

/-- A text between such quotes. -/
def literal (q : Quote) (s : String) : List Char :=
  q.char :: (s.toList.flatMap q.escaped ++ [q.char])

end Quote

theorem readString_close (q : Quote) (start : Nat) (acc : List Char) (offset : Nat)
    (rest : List Char) :
    readString start q.char acc ⟨offset, q.char :: rest⟩ =
      .ok (acc.reverse, ⟨offset + 1, rest⟩) := by
  cases q <;> exact readString_cons ..

/-- A backslash keeps a quote and a backslash from their meanings. -/
theorem readString_backslash (q : Quote) (start : Nat) (acc : List Char) (offset : Nat)
    (rest : List Char) {c : Char} (hc : (c == q.char || c == '\\') = true) :
    readString start q.char acc ⟨offset, '\\' :: c :: rest⟩ =
      readString start q.char (c :: acc) ⟨offset + 2, rest⟩ := by
  rcases Bool.or_eq_true .. |>.mp hc with hc | hc
  · rw [eq_of_beq hc]
    cases q <;> exact readString_cons ..
  · rw [eq_of_beq hc]
    cases q <;> exact readString_cons ..

/-- The text between two quotes is read as it was before it was escaped. -/
theorem readString_escaped (q : Quote) (start : Nat) (cs acc : List Char) (offset : Nat)
    (rest : List Char) :
    readString start q.char acc ⟨offset, cs.flatMap q.escaped ++ q.char :: rest⟩ =
      .ok (acc.reverse ++ cs, ⟨offset + byteLength (cs.flatMap q.escaped) + 1, rest⟩) := by
  induction cs generalizing acc offset with
  | nil =>
    rw [List.append_nil]
    exact readString_close ..
  | cons c cs ih =>
    have hnext := ih (c :: acc) (offset + byteLength (q.escaped c))
    rw [List.reverse_cons, List.append_assoc, List.singleton_append, Nat.add_assoc offset,
      ← byteLength_append] at hnext
    rw [List.flatMap_cons, List.append_assoc, ← hnext]
    unfold Quote.escaped
    split
    · next hc =>
      refine (readString_backslash q start acc offset _ hc).trans ?_
      rcases Bool.or_eq_true .. |>.mp hc with hc | hc
      · rw [eq_of_beq hc]
        cases q <;> rfl
      · rw [eq_of_beq hc]
        rfl
    · next hc =>
      obtain ⟨hquote, hslash⟩ := Bool.or_eq_false_iff.mp (Bool.not_eq_true _ |>.mp hc)
      split
      · next hline =>
        rw [eq_of_beq hline]
        cases q <;> exact readString_cons ..
      · next hline =>
        rw [List.singleton_append, readString_cons, hquote, hslash,
          Bool.not_eq_true _ |>.mp hline]
        rfl

theorem readLexeme_quoted (q : Quote) (s : String) (previous : Option Lexeme) (offset : Nat)
    (rest : List Char) (next : Option Char) :
    readLexeme previous ⟨offset, q.literal s ++ rest⟩ q.char next =
      .ok (.text s, ⟨offset + byteLength (q.literal s), rest⟩) := by
  have hstring := readString_escaped q offset s.toList [] (offset + 1) rest
  have hdigit : (Number.isDigit q.char || (q.char == '.' && next.any Number.isDigit)) = false := by
    cases q <;> rfl
  have hstart : (q.char == '"' || q.char == '\'') = true := by cases q <;> rfl
  have hquote : byteLength [q.char] = 1 := by cases q <;> rfl
  rw [readLexeme, hdigit, hstart, if_neg Bool.false_ne_true, if_pos rfl, Quote.literal,
    List.cons_append, List.drop_one, List.tail_cons, List.append_assoc, List.singleton_append,
    hstring]
  dsimp only
  rw [List.reverse_nil, List.nil_append, String.ofList_toList, ← List.singleton_append,
    byteLength_append, byteLength_append, hquote, ← Nat.add_assoc, ← Nat.add_assoc]

theorem isReadFrom_quoted (q : Quote) (s : String) : (Lexeme.text s).IsReadFrom (q.literal s) :=
  isReadFrom_of_readLexeme
    (fun offset rest _ => by cases q <;> exact skipTrivia_stop (by decide) (by decide) offset _)
    fun previous offset rest _ _ => ⟨.text s, rfl, readLexeme_quoted q s previous offset rest _⟩

theorem isRead_text (s : String) : (Lexeme.text s).IsRead :=
  isRead_of_readLexeme rfl rfl
    (fun offset rest _ => skipTrivia_stop (by decide) (by decide) offset _)
    fun previous offset rest _ _ =>
      ⟨.text s, rfl, readLexeme_quoted .double s previous offset rest _⟩

/-! ## 3. Templates -/

theorem readTemplate_escape (start : Nat) (parts : List String) (hs : List Hole)
    (acc : List Char) (offset : Nat) (rest : List Char) :
    readTemplate start parts hs acc ⟨offset, '\\' :: rest⟩ =
      match readEscape start .unterminatedTemplate ⟨offset + 1, rest⟩ with
      | .ok (decoded, q) => readTemplate start parts hs (decoded :: acc) q
      | .error e => .error e := by
  rw [readTemplate]
  dsimp only
  rw [if_neg (by decide), if_neg (by simp), if_pos (by decide)]
  split <;>
  · next heq =>
    have heq : readEscape start .unterminatedTemplate ⟨offset + 1, rest⟩ = _ := heq
    rw [heq]

theorem readTemplate_char (start : Nat) (parts : List String) (hs : List Hole) (acc : List Char)
    (offset : Nat) (rest : List Char) {c : Char} (htick : (c == '\x60') = false)
    (hdollar : (c == '$' && rest.head? == some '\x7b') = false) (hslash : (c == '\\') = false) :
    readTemplate start parts hs acc ⟨offset, c :: rest⟩ =
      readTemplate start parts hs (c :: acc) ⟨offset + c.utf8Size, rest⟩ := by
  rw [readTemplate]
  dsimp only
  rw [htick, hdollar, hslash]
  rfl

/-- Text of a template is read as it was before it was written. -/
theorem readTemplate_text (start : Nat) (parts : List String) (hs : List Hole) (cs acc : List Char)
    (offset : Nat) (rest : List Char) :
    readTemplate start parts hs acc ⟨offset, cs.flatMap templateChar ++ rest⟩ =
      readTemplate start parts hs (cs.reverse ++ acc)
        ⟨offset + byteLength (cs.flatMap templateChar), rest⟩ := by
  induction cs generalizing acc offset with
  | nil => rfl
  | cons c cs ih =>
    have hnext := ih (c :: acc) (offset + byteLength (templateChar c))
    rw [Nat.add_assoc offset, ← byteLength_append] at hnext
    rw [List.flatMap_cons, List.append_assoc, List.reverse_cons, List.append_assoc,
      List.singleton_append, ← hnext]
    unfold templateChar
    split
    · next hc =>
      refine (readTemplate_escape ..).trans ?_
      rcases Bool.or_eq_true .. |>.mp hc with hc | hc
      · rcases Bool.or_eq_true .. |>.mp hc with hc | hc
        · rw [eq_of_beq hc]
          rfl
        · rw [eq_of_beq hc]
          rfl
      · rw [eq_of_beq hc]
        rfl
    · next hc =>
      simp only [Bool.not_eq_true, Bool.or_eq_false_iff] at hc
      obtain ⟨⟨htick, hslash⟩, hdollar⟩ := hc
      exact readTemplate_char start parts hs acc offset _ htick
        (by rw [hdollar, Bool.false_and]) hslash

/-- The source of a hole is what the scanner goes over. -/
theorem readTemplate_source {source : String} (h : Passes source.toList) (start : Nat)
    (parts : List String) (hs : List Hole) (acc : List Char) (offset : Nat) (rest : List Char) :
    readTemplate start parts hs acc
        ⟨offset, '$' :: '\x7b' :: (source.toList ++ '\x7d' :: rest)⟩ =
      readTemplate start (.ofList acc.reverse :: parts) (⟨offset + 2, source⟩ :: hs) []
        ⟨offset + 2 + byteLength source.toList + 1, rest⟩ := by
  have hclose : skipHole start [.code 1] ⟨offset + 2, source.toList ++ '\x7d' :: rest⟩ =
      .ok (⟨offset + 2 + byteLength source.toList, '\x7d' :: rest⟩,
        ⟨offset + 2 + byteLength source.toList + 1, rest⟩) :=
    (h 0 [] _ _ _).trans (skipHole_code ..)
  rw [readTemplate_hole, hclose]
  dsimp only
  rw [List.length_append, Nat.add_sub_cancel, List.take_left, String.ofList_toList]

theorem templateChars_last (part : String) :
    templateChars [part] [] = part.toList.flatMap templateChar ++ ['\x60'] := by
  show [part].flatMap _ ++ _ = _
  rw [List.flatMap_singleton]

/-- The parts and holes that follow are read as they were before they were written. -/
theorem readTemplate_templateChars (start : Nat) {parts : List String} {holes : List Hole}
    (hlength : parts.length = holes.length + 1) (hholes : ∀ h ∈ holes, Passes h.source.toList)
    (ps : List String) (hs : List Hole) (offset : Nat) (rest : List Char) :
    ∃ hs', hs'.map Hole.source = holes.map Hole.source ∧
      readTemplate start ps hs [] ⟨offset, templateChars parts holes ++ rest⟩ =
        .ok (.template (ps.reverse ++ parts) (hs.reverse ++ hs'),
          ⟨offset + byteLength (templateChars parts holes), rest⟩) := by
  induction holes generalizing parts ps hs offset with
  | nil =>
    match parts, hlength with
    | [part], _ =>
      refine ⟨[], rfl, ?_⟩
      have hmark : byteLength ['\x60'] = 1 := rfl
      rw [templateChars_last, List.append_assoc, List.singleton_append, readTemplate_text,
        readTemplate_tick, List.append_nil, List.reverse_reverse, String.ofList_toList,
        List.reverse_cons, List.append_nil, byteLength_append, hmark, Nat.add_assoc]
  | cons hole holes ih =>
    match parts, hlength with
    | part :: parts, hlength =>
      obtain ⟨hhole, hholes⟩ := List.forall_mem_cons.mp hholes
      -- where the source of the hole starts: behind the text of the part and two characters
      let start' := offset + byteLength (part.toList.flatMap templateChar) + 2
      obtain ⟨hs', hsources, hread⟩ := ih (Nat.succ.inj hlength) hholes (part :: ps)
        (⟨start', hole.source⟩ :: hs) (start' + byteLength hole.source.toList + 1)
      refine ⟨⟨start', hole.source⟩ :: hs', congrArg (hole.source :: ·) hsources, ?_⟩
      rw [templateChars, List.append_assoc, readTemplate_text]
      show readTemplate start ps hs _
        ⟨_, '$' :: '\x7b' ::
          ((hole.source.toList ++ '\x7d' :: templateChars parts holes) ++ rest)⟩ = _
      rw [List.append_assoc, List.cons_append, readTemplate_source hhole, List.append_nil,
        List.reverse_reverse, String.ofList_toList, hread, List.reverse_cons, List.reverse_cons,
        List.append_assoc, List.append_assoc]
      have hopen : byteLength ['$', '\x7b'] = 2 := rfl
      have hclose : byteLength ['\x7d'] = 1 := rfl
      have hend : start' + byteLength hole.source.toList + 1 +
          byteLength (templateChars parts holes) =
          offset + byteLength (part.toList.flatMap templateChar ++ (['$', '\x7b'] ++
            (hole.source.toList ++ (['\x7d'] ++ templateChars parts holes)))) := by
        simp only [byteLength_append, hopen, hclose]
        omega
      rw [hend]
      rfl

theorem map_unplaced {hs holes : List Hole} (hsources : hs.map Hole.source = holes.map Hole.source)
    (hholes : ∀ h ∈ holes, h.offset = 0) : hs.map (fun h => ⟨0, h.source⟩) = holes := by
  have hmap := congrArg (List.map fun source => (⟨0, source⟩ : Hole)) hsources
  rw [List.map_map, List.map_map] at hmap
  refine hmap.trans ((List.map_congr_left fun h hh => ?_).trans (List.map_id _))
  show (⟨0, h.source⟩ : Hole) = h
  rw [← hholes h hh]

theorem isRead_template {parts : List String} {holes : List Hole}
    (hlength : parts.length = holes.length + 1)
    (hholes : ∀ h ∈ holes, h.offset = 0 ∧ Passes h.source.toList) :
    (Lexeme.template parts holes).IsRead := by
  refine isRead_of_readLexeme rfl rfl
    (fun offset rest _ => skipTrivia_stop (by decide) (by decide) offset _) ?_
  intro previous offset rest _ _
  obtain ⟨hs, hsources, hread⟩ := readTemplate_templateChars offset hlength
    (fun h hh => (hholes h hh).2) [] [] (offset + 1) rest
  refine ⟨.template parts hs, ?_, ?_⟩
  · rw [Lexeme.unplaced, map_unplaced hsources fun h hh => (hholes h hh).1]
  · refine Eq.trans hread ?_
    rw [List.reverse_nil, List.reverse_nil, List.nil_append, List.nil_append, Nat.add_assoc]
    rfl

end TraceViewer.Snippet

