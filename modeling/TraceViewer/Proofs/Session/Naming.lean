import TraceViewer.Proofs.Parser.Compiling
import TraceViewer.Proofs.Parser.Retiring
import TraceViewer.Proofs.Session.Agreement
import TraceViewer.Proofs.Snippet.Declarations

/-!
# Parsers that are named by their source text

A new parser gets its name from the source text, where the first letters that look like the
declaration of a function count, wherever they stand, and else those that look like the declaration
of a variable.  What the parser runs is found at the start of the text alone: the function or the
variable that the text opens with.  `saveParser_named` says what the text leaves in its variables
when it is run as a program.  The declaration that the text opens with gives the function that the
parser runs, so the parser has the name of its function where this is the name that was found, as
it is if the text opens with a function or if nothing in the text is like one.  A text that is
compiled as an expression, and is no block and no declaration as a program, leaves no variable of
any name.

The name may also come from a comment, a string or a function inside of the function, and then the
text declares no such variable (`saveParser_commentedSource`).
-/

namespace TraceViewer

/-! ## 1. How a text opens -/

namespace Parser

open Text (isBlank dropBlanks)

/-- The name between the word "function" and an opening parenthesis at the start of a text. -/
def functionName? (cs : List Char) : Option (List Char) :=
  (afterWord? "function" cs).bind (nameBefore? '(')

/-- The name between a declaring word and an equals sign at the start of a text. -/
def variableName? (cs : List Char) : Option (List Char) :=
  (afterDeclarator? cs).bind (nameBefore? '=')

/-- The name that a source text declares where it starts. -/
def openingName? (code : String) : Option String :=
  String.ofList <$> (functionName? code.toList <|> variableName? code.toList)

variable {stop : Char} {cs ds name rest : List Char} {word : String}

/-- A text starts with a word, with a name behind blanks, and with a character behind the name. -/
def Opens (word : String) (stop : Char) (name cs : List Char) : Prop :=
  ∃ b blanks blanks' rest,
    cs = word.toList ++ b :: (blanks ++ (name ++ (blanks' ++ stop :: rest))) ∧
      (∀ c ∈ b :: blanks, isBlank c = true) ∧ (∀ c ∈ blanks', isBlank c = true) ∧
      name ≠ [] ∧ ∀ c ∈ name, isNameChar c = true

theorem isNameChar_of_isBlank {c : Char} (h : isBlank c = true) : isNameChar c = false := by
  by_contra hname
  rw [isBlank_of_isNameChar (Bool.not_eq_false _ |>.mp hname)] at h
  cases h

/-- No blank comes where a name starts. -/
theorem not_isBlank_head (hne : name ≠ []) (hchars : ∀ c ∈ name, isNameChar c = true)
    (rest : List Char) : ∀ c ∈ (name ++ rest).head?, isBlank c = false := by
  obtain ⟨d, ds, rfl⟩ := List.exists_cons_of_ne_nil hne
  rintro _ ⟨⟩
  exact isBlank_of_isNameChar (hchars d List.mem_cons_self)

theorem nameBefore?_eq_some_iff (hname : isNameChar stop = false) (hblank : isBlank stop = false) :
    nameBefore? stop cs = some name ↔ ∃ blanks rest, cs = name ++ (blanks ++ stop :: rest) ∧
      (∀ c ∈ blanks, isBlank c = true) ∧ name ≠ [] ∧ ∀ c ∈ name, isNameChar c = true := by
  unfold nameBefore?
  dsimp only
  constructor
  · intro h
    split at h
    · next hcond =>
      cases h
      obtain ⟨hne, hstop⟩ := Bool.and_eq_true_iff.mp hcond
      obtain ⟨rest, hrest⟩ := List.head?_eq_some_iff.mp (eq_of_beq hstop)
      have hblanks := List.takeWhile_append_dropWhile (p := isBlank) (l := cs.dropWhile isNameChar)
      rw [show (cs.dropWhile isNameChar).dropWhile isBlank = stop :: rest from hrest] at hblanks
      refine ⟨(cs.dropWhile isNameChar).takeWhile isBlank, rest, ?_,
        fun c hc => List.mem_takeWhile_imp hc, by simpa using hne,
        fun c hc => List.mem_takeWhile_imp hc⟩
      rw [hblanks, List.takeWhile_append_dropWhile]
    · cases h
  · rintro ⟨blanks, rest, rfl, hblanks, hne, hchars⟩
    have hend : ∀ c ∈ (blanks ++ stop :: rest).head?, isNameChar c = false :=
      Snippet.eq_false_of_head?_blanks (fun _ => isNameChar_of_isBlank) hblanks hname
    obtain ⟨htake, hdrop⟩ := Snippet.takeWhile_stop hchars hend
    have hstop : ∀ c ∈ (stop :: rest).head?, isBlank c = false := by
      rintro _ ⟨⟩
      exact hblank
    have hrest : dropBlanks (blanks ++ stop :: rest) = stop :: rest :=
      (Snippet.takeWhile_stop hblanks hstop).2
    rw [htake, hdrop, hrest, if_pos (by simpa using hne)]

theorem opens_iff (hname : isNameChar stop = false) (hblank : isBlank stop = false) :
    (afterWord? word cs).bind (nameBefore? stop) = some name ↔ Opens word stop name cs := by
  constructor
  · intro h
    obtain ⟨rest, hword, hbefore⟩ := Option.bind_eq_some_iff.mp h
    obtain ⟨⟨b, blanks, hcs, hblanks⟩, -⟩ := Snippet.afterWord?_eq_some_iff.mp hword
    obtain ⟨blanks', rest', rfl, hchars⟩ := (nameBefore?_eq_some_iff hname hblank).mp hbefore
    exact ⟨b, blanks, blanks', rest', hcs, hblanks, hchars⟩
  · rintro ⟨b, blanks, blanks', rest, rfl, hblanks, hblanks', hne, hchars⟩
    refine Option.bind_eq_some_iff.mpr ⟨name ++ (blanks' ++ stop :: rest), ?_, ?_⟩
    · rw [Snippet.afterWord?_eq_some_iff]
      exact ⟨⟨b, blanks, rfl, hblanks⟩, not_isBlank_head hne hchars _⟩
    · rw [nameBefore?_eq_some_iff hname hblank]
      exact ⟨blanks', rest, rfl, hblanks', hne, hchars⟩

theorem functionName?_eq_some_iff :
    functionName? cs = some name ↔ Opens "function" '(' name cs :=
  opens_iff (by decide) (by decide)

theorem variableName?_eq_some_iff : variableName? cs = some name ↔
    ∃ word ∈ Snippet.declarators, Opens word '=' name cs := by
  constructor
  · intro h
    obtain ⟨rest, hafter, hbefore⟩ := Option.bind_eq_some_iff.mp h
    obtain ⟨word, hword, hafter⟩ := Snippet.afterDeclarator?_eq_some_iff.mp hafter
    refine ⟨word, hword, (opens_iff (by decide) (by decide)).mp ?_⟩
    rw [hafter, Option.bind_some, hbefore]
  · rintro ⟨word, hword, hopens⟩
    obtain ⟨rest, hafter, hbefore⟩ :=
      Option.bind_eq_some_iff.mp ((opens_iff (by decide) (by decide)).mpr hopens)
    have hafter := Snippet.afterDeclarator?_eq_some_iff.mpr ⟨word, hword, hafter⟩
    exact Option.bind_eq_some_iff.mpr ⟨rest, hafter, hbefore⟩

theorem Opens.append (h : Opens word stop name cs) (more : List Char) :
    Opens word stop name (cs ++ more) := by
  obtain ⟨b, blanks, blanks', rest, rfl, h⟩ := h
  exact ⟨b, blanks, blanks', rest ++ more, by simp, h⟩

theorem Opens.not_isBlank {c : Char} (hword : word.toList.head?.any isNameChar = true)
    (h : Opens word stop name (c :: cs)) : isBlank c = false := by
  obtain ⟨b, blanks, blanks', rest, hcs, -⟩ := h
  cases hletters : word.toList with
  | nil =>
    rw [hletters] at hword
    cases hword
  | cons d ds =>
    rw [hletters] at hcs hword
    obtain ⟨rfl, -⟩ := List.cons.inj hcs
    exact isBlank_of_isNameChar hword

theorem functionName?_blank {b : Char} (hb : isBlank b = true) (cs : List Char) :
    functionName? (b :: cs) = none := by
  rw [Option.eq_none_iff_forall_ne_some]
  intro name h
  have hnot := (functionName?_eq_some_iff.mp h).not_isBlank (by decide)
  rw [hb] at hnot
  cases hnot

theorem variableName?_blank {b : Char} (hb : isBlank b = true) (cs : List Char) :
    variableName? (b :: cs) = none := by
  have hstart : ∀ w ∈ Snippet.declarators, w.toList.head?.any isNameChar = true := by
    decide
  rw [Option.eq_none_iff_forall_ne_some]
  intro name h
  obtain ⟨word, hword, hopens⟩ := variableName?_eq_some_iff.mp h
  have hnot := hopens.not_isBlank (hstart word hword)
  rw [hb] at hnot
  cases hnot

/-- What the text opens with is the first that is found, where blanks come before it. -/
theorem firstInside?_of_start {read : List Char → Option (List Char)}
    (hread : ∀ b, isBlank b = true → ∀ cs, read (b :: cs) = none)
    (hblanks : ∀ b ∈ ds, isBlank b = true) (h : read cs = some name) :
    firstInside? read (ds ++ cs) = some name := by
  induction ds with
  | nil =>
    rw [List.nil_append]
    cases cs with
    | nil => exact h
    | cons c cs => rw [firstInside?, h]
  | cons b ds ih =>
    obtain ⟨hb, hds⟩ := List.forall_mem_cons.mp hblanks
    rw [List.cons_append, firstInside?, hread b hb]
    exact ih hds

/-- A new parser is named by what the text opens with, if this is a function or if nowhere in the
text there is anything like one. -/
theorem declaredName?_of_openingName? {source opening : String}
    (h : openingName? (Text.trim source) = some opening)
    (hfirst : functionName? (Text.trim source).toList ≠ none ∨
      firstInside? functionName? source.toList = none) :
    declaredName? source = some opening := by
  obtain ⟨before, after, hsource, hblanks⟩ := Text.exists_of_trim source
  show String.ofList <$> (firstInside? functionName? source.toList <|>
    firstInside? variableName? source.toList) = _
  unfold openingName? at h
  obtain ⟨name, hname, rfl⟩ := Option.map_eq_some_iff.mp h
  rw [Option.orElse_eq_orElse, Option.orElse_eq_or] at hname
  cases hfunction : functionName? (Text.trim source).toList with
  | some found =>
    rw [hfunction, Option.some_or] at hname
    cases hname
    have hopens := (functionName?_eq_some_iff.mp hfunction).append after
    have hinside := firstInside?_of_start (fun _ => functionName?_blank) hblanks
      (functionName?_eq_some_iff.mpr hopens)
    rw [hsource, hinside]
    rfl
  | none =>
    have hnone : firstInside? functionName? source.toList = none :=
      hfirst.resolve_left fun hne => hne hfunction
    rw [hfunction, Option.none_or] at hname
    obtain ⟨word, hword, hopens⟩ := variableName?_eq_some_iff.mp hname
    have hinside := firstInside?_of_start (fun _ => variableName?_blank) hblanks
      (variableName?_eq_some_iff.mpr ⟨word, hword, hopens.append after⟩)
    rw [hnone, hsource, hinside]
    rfl

/-- What is bound at the start of a text that opens with the declaration of a variable is the
variable. -/
theorem eq_of_boundName? {found : List Char} (h : variableName? cs = some name)
    (hbound : boundName? cs = some found) : found = name := by
  obtain ⟨rest, hafter, hbefore⟩ := Option.bind_eq_some_iff.mp h
  unfold boundName? at hbound
  rw [hafter, Option.bind_some] at hbound
  rcases Snippet.eq_some_of_orElse hbound with hdeclared | hassigned
  · -- both take the same characters behind the declaring word
    unfold assignedName? at hdeclared
    unfold nameBefore? at hbefore
    dsimp only at hdeclared hbefore
    grind
  · -- the declaring word itself is given no value
    obtain ⟨word, hword, b, blanks, blanks', rest', rfl, hblanks, -, hne, hchars⟩ :=
      variableName?_eq_some_iff.mp h
    have hall : ∀ w ∈ Snippet.declarators, w.toList.all isNameChar = true := by decide
    have hletters := List.all_eq_true.mp (hall word hword)
    have hend : ∀ c ∈ (b :: (blanks ++ (name ++ (blanks' ++ '=' :: rest')))).head?,
        isNameChar c = false := by
      rintro _ ⟨⟩
      exact isNameChar_of_isBlank (hblanks b List.mem_cons_self)
    have hdrop : dropBlanks (b :: (blanks ++ (name ++ (blanks' ++ '=' :: rest')))) =
        name ++ (blanks' ++ '=' :: rest') :=
      (Snippet.takeWhile_stop hblanks (not_isBlank_head hne hchars _)).2
    unfold assignedName? at hassigned
    dsimp only at hassigned
    rw [(Snippet.takeWhile_stop hletters hend).2, hdrop] at hassigned
    obtain ⟨d, ds, rfl⟩ := List.exists_cons_of_ne_nil hne
    split at hassigned
    · cases hassigned
    split at hassigned
    · next heq =>
      obtain ⟨rfl, -⟩ := List.cons.inj heq
      cases hchars _ List.mem_cons_self
    · cases hassigned

end Parser

/-! ## 2. What a text leaves bound -/

namespace Snippet

open TraceViewer.Parser (Opens isNameChar isNameStart)

open TraceViewer.Text (byteLength)

variable {source word : String} {ts : List Token} {stop : Char} {name : List Char}

theorem isDigit_of_isNameChar {c : Char} (h : isNameChar c = true)
    (hstart : isNameStart c = false) : Number.isDigit c = true := by
  unfold isNameChar Char.isAlphanum at h
  unfold isNameStart at hstart
  have hdigit : c.isDigit = true := by grind
  simpa [Char.isDigit, Number.isDigit, Char.le_def] using hdigit

/-- What is read where a name of these characters starts is the name, or a number. -/
theorem readLexeme_of_isNameChar {previous : Option Lexeme} {offset : Nat} {c : Char}
    {cs rest : List Char} {next : Option Char} {l : Lexeme} {q : Place}
    (hchars : ∀ d ∈ c :: cs, isNameChar d = true) (hrest : ∀ d ∈ rest.head?, isIdentChar d = false)
    (h : readLexeme previous ⟨offset, c :: (cs ++ rest)⟩ c next = .ok (l, q)) :
    ∀ g, l = .name g → g = String.ofList (c :: cs) := by
  obtain ⟨hc, hcs⟩ := List.forall_mem_cons.mp hchars
  rintro g rfl
  -- a name may be found that starts with a digit, which no name of the language does
  cases hstart : isNameStart c with
  | true =>
    rw [readLexeme_name (isIdentStart_of_isNameStart hstart)
      (fun d hd => isIdentChar_of_isNameChar (hcs d hd)) hrest] at h
    cases h
    rfl
  | false =>
    unfold readLexeme at h
    rw [isDigit_of_isNameChar hc hstart, Bool.true_or, if_pos rfl] at h
    obtain ⟨x, hx⟩ := readNumber_ok h
    cases hx

/-- The first two tokens of a text that starts with a word and a name. -/
theorem tokenize_of_opens (htokens : tokenize source = .ok ts) (hword : IsWord word)
    (hstop : isIdentChar stop = false) (h : Opens word stop name source.toList) :
    ∃ t ts', ts = ⟨.name word, 0⟩ :: t :: ts' ∧
      ∀ g, t.lexeme = .name g → g = String.ofList name := by
  obtain ⟨b, blanks, blanks', rest, hsource, hblanks, hblanks', hne, hchars⟩ := h
  obtain ⟨c, cs, rfl⟩ := List.exists_cons_of_ne_nil hne
  have hend : ∀ d ∈ (b :: (blanks ++ (c :: cs ++ (blanks' ++ stop :: rest)))).head?,
      isIdentChar d = false := by
    rintro _ ⟨⟩
    exact isIdentChar_of_isBlank (hblanks b List.mem_cons_self)
  have hrest : ∀ d ∈ (blanks' ++ stop :: rest).head?, isIdentChar d = false :=
    eq_false_of_head?_blanks (fun _ => isIdentChar_of_isBlank) hblanks' hstop
  have hc : isNameChar c = true := hchars c List.mem_cons_self
  have hslash : c ≠ '/' := by
    rintro rfl
    cases hc
  unfold tokenize Place.ofText at htokens
  rw [hsource] at htokens
  have htokens := (tokensFrom_name hword hend).symm.trans htokens
  obtain ⟨n, hskip⟩ : ∃ n, skipTrivia ⟨0 + byteLength word.toList,
      b :: (blanks ++ (c :: cs ++ (blanks' ++ stop :: rest)))⟩ =
        .ok ⟨n, c :: (cs ++ (blanks' ++ stop :: rest))⟩ :=
    skipTrivia_blanks hblanks (Parser.isBlank_of_isNameChar hc) hslash
  -- there are characters left for a second token
  rw [List.length_append, List.length_cons (a := b), ← Nat.add_assoc, tokensFrom, hskip]
    at htokens
  dsimp only at htokens
  split at htokens
  · cases htokens
  · next l q hread =>
    obtain ⟨us, k, rfl, -⟩ := tokensFrom_eq_append htokens
    exact ⟨⟨l, n⟩, us ++ [⟨.finish, k⟩], rfl, readLexeme_of_isNameChar hchars hrest hread⟩

theorem Heap.lookup?_of_own? {h : Heap} {scope : Nat} {name : String} {v : Value}
    (hown : h.own? scope name = some v) : h.lookup? scope name = some v := by
  obtain ⟨s, hs, hv⟩ := Option.bind_eq_some_iff.mp hown
  unfold Heap.lookup? Heap.find?
  rw [hs]
  dsimp only
  rw [hv]
  rfl

end Snippet

namespace Registry

open Snippet

variable {r : Registry} {S : Setting} {heap : Heap} {m : Machine} {name code : String} {v : Value}
  {program : List Stmt}

/-- Runs a program, and gives the value of a variable of its top scope. -/
def topValue (S : Setting) (name : String) (program : List Stmt) : Run (Option Value) := do
  let env ← Run.openTop []
  let _ ← runProgram S env program
  Run.askHeap fun h => h.own? env.scope name

/-- The value that a text leaves in a variable of its top scope when it is run as a program. -/
def leftIn? (r : Registry) (code name : String) : Option Value :=
  match readProgram code with
  | .error _ => none
  | .ok program =>
    match (r.perform fun S => topValue S name program).1 with
    | .error _ => none
    | .ok found => found

theorem leftIn?_eq_some_iff : r.leftIn? code name = some v ↔ ∃ program,
    readProgram code = .ok program ∧
      (r.perform fun S => topValue S name program).1 = .ok (some v) := by
  unfold leftIn?
  cases readProgram code with
  | error e => simp
  | ok program =>
    rcases hrun : r.perform fun S => topValue S name program with ⟨_ | found, r'⟩ <;> simp [hrun]

/-- What stands in the top scope is what the compiler looks up. -/
theorem programValue_of_topValue (h : topValue S name program { heap } = .ok (some v) m) :
    programValue S name program { heap } = .ok (some v) m := by
  unfold topValue at h
  unfold programValue
  rw [Run.bind_ok (openTop_apply heap)] at h ⊢
  obtain ⟨value, n, hrun, hask⟩ := Run.eq_ok_of_bind h
  rw [Run.bind_ok hrun]
  have hown : n.heap.own? (topEnv heap).scope name = some v ∧ n = m := by
    injection hask with hv hm
    exact ⟨hv, hm⟩
  obtain ⟨hown, rfl⟩ := hown
  show EStateM.Result.ok (n.heap.lookup? (topEnv heap).scope name <|> _) n = _
  rw [Heap.lookup?_of_own? hown]
  rfl

/-- A variable that the first statement declares has the value that the compiler looks up. -/
theorem topValue_of_programValue {s : Stmt} {rest : List Stmt} (hname : name ∈ s.declares)
    (h : programValue S name (s :: rest) { heap } = .ok (some v) m) :
    topValue S name (s :: rest) { heap } = .ok (some v) m := by
  unfold programValue at h
  unfold topValue
  rw [Run.bind_ok (openTop_apply heap)] at h ⊢
  obtain ⟨value, n, hrun, hask⟩ := Run.eq_ok_of_bind h
  rw [Run.bind_ok hrun]
  obtain ⟨w, hown⟩ := Option.isSome_iff_exists.mp
    (runProgram_declares hname (lt_size_topMachine heap) hrun)
  have hask : EStateM.Result.ok (n.heap.lookup? (topEnv heap).scope name <|> _) n =
    EStateM.Result.ok (some v) m := hask
  rw [Heap.lookup?_of_own? hown] at hask
  cases hask
  show EStateM.Result.ok (m.heap.own? (topEnv heap).scope name) m = _
  rw [hown]

/-! ## 3. What a new parser runs -/

/-- A text that opens with the declaration of the variable that is looked up leaves the compiled
function in it. -/
theorem leftIn?_of_opens {word : String} {stop : Char} {cs : List Char}
    (hword : word = "function" ∨ word ∈ declarators) (hstop : isIdentChar stop = false)
    (hopens : Parser.Opens word stop cs code.toList)
    (hbinding : binding? name code = some (.ofList cs)) (h : (r.codeValue name code).1 = .ok v) :
    r.leftIn? code (.ofList cs) = some v := by
  have hisWord : IsWord word := by
    rcases hword with rfl | hword
    · exact isWord_function
    · exact isWord_of_mem_declarators hword
  obtain ⟨program, hprogram, hvalue⟩ := (codeValue_of_program hbinding).mp h
  obtain ⟨ts, htokens⟩ := Production.exists_tokens_of_readProgram hprogram
  obtain ⟨t, ts', rfl, ht⟩ := tokenize_of_opens htokens hisWord hstop hopens
  obtain ⟨g, i, ts, heq, s, rest, rfl, hs⟩ :=
    Production.declares_of_readProgram hword htokens hprogram
  obtain ⟨rfl, -⟩ := List.cons.inj heq
  -- what the program declares first is the name that was found by its characters
  obtain rfl := ht g rfl
  obtain ⟨m, hrun⟩ := exists_of_perform hvalue
  refine leftIn?_eq_some_iff.mpr ⟨_, hprogram, ?_⟩
  rw [perform_ok (topValue_of_programValue hs hrun)]

theorem hasStart_of_functionName? {cs : List Char}
    (h : Parser.functionName? code.toList = some cs) : Text.hasStart code "function" = true := by
  obtain ⟨b, blanks, blanks', rest, hcode, -⟩ := Parser.functionName?_eq_some_iff.mp h
  exact List.isPrefixOf_iff_prefix.mpr ⟨_, hcode.symm⟩

theorem not_hasStart_of_opens {word : String} {stop : Char} {cs : List Char}
    (hword : word ∈ declarators) (h : Parser.Opens word stop cs code.toList) :
    Text.hasStart code "function" = false := by
  obtain ⟨b, blanks, blanks', rest, hcode, -⟩ := h
  unfold Text.hasStart
  rw [hcode]
  simp only [declarators, List.mem_cons, List.not_mem_nil, or_false] at hword
  rcases hword with rfl | rfl | rfl <;> rfl

theorem leftIn?_of_openingName? {opening : String}
    (hopening : Parser.openingName? code = some opening)
    (hfunction : Parser.functionName? code.toList ≠ none → name = opening)
    (h : (r.codeValue name code).1 = .ok v) : r.leftIn? code opening = some v := by
  obtain ⟨cs, hcs, rfl⟩ := Option.map_eq_some_iff.mp hopening
  rcases eq_some_of_orElse hcs with hdeclared | hvariable
  · have hbinding : binding? name code = some (.ofList cs) := by
      unfold binding?
      rw [if_pos (hasStart_of_functionName? hdeclared), hfunction (by rw [hdeclared]; nofun)]
    exact leftIn?_of_opens (.inl rfl) (by decide)
      (Parser.functionName?_eq_some_iff.mp hdeclared) hbinding h
  · obtain ⟨word, hword, hopens⟩ := Parser.variableName?_eq_some_iff.mp hvariable
    have hisWord := isWord_of_mem_declarators hword
    cases hbinding : binding? name code with
    | none =>
      -- no expression starts with a word that declares variables
      obtain ⟨e, hread, -⟩ := (codeValue_of_expr hbinding).mp h
      obtain ⟨ts, c, htokens, hrun, -⟩ := Production.exists_of_readExpr hread
      obtain ⟨t, ts', rfl, -⟩ := tokenize_of_opens htokens hisWord (by decide) hopens
      exact (Production.not_assignment_declarator (n := 127) rfl hword e c hrun).elim
    | some binding =>
      have hbound : binding = .ofList cs := by
        unfold binding? at hbinding
        rw [not_hasStart_of_opens hword hopens, if_neg Bool.false_ne_true] at hbinding
        split at hbinding
        · obtain ⟨found, hfound, rfl⟩ := Option.map_eq_some_iff.mp hbinding
          rw [Parser.eq_of_boundName? hvariable hfound]
        · cases hbinding
      exact leftIn?_of_opens (.inr hword) (by decide) hopens (hbound ▸ hbinding) h

/-- What is left in the variable that the compiler looks up is the compiled function. -/
theorem leftIn?_of_binding? {binding : String} (hbinding : binding? name code = some binding)
    (h : (r.codeValue name code).1 = .ok v) {w : Value} (hleft : r.leftIn? code binding = some w) :
    w = v := by
  obtain ⟨program, hprogram, hvalue⟩ := (codeValue_of_program hbinding).mp h
  obtain ⟨_, hprogram', htop⟩ := leftIn?_eq_some_iff.mp hleft
  obtain rfl := Except.ok.inj (hprogram.symm.trans hprogram')
  obtain ⟨m, hrun⟩ := exists_of_perform htop
  rw [perform_ok (programValue_of_topValue hrun)] at hvalue
  cases hvalue
  rfl

/-- Texts whose first token starts neither a block nor a function declaration. -/
def StartsExpression (code : String) : Prop :=
  ∀ t ts, tokenize code = .ok (t :: ts) →
    t.lexeme ≠ .punct .braceOpen ∧ t.lexeme ≠ .name "function"

/-- A text that is compiled as an expression leaves no variable. -/
theorem leftIn?_of_expr (hbinding : binding? name code = none) (hstarts : StartsExpression code)
    (h : (r.codeValue name code).1 = .ok v) (m : String) :
    r.leftIn? code m = none := by
  rw [Option.eq_none_iff_forall_ne_some]
  intro w hleft
  obtain ⟨e, hread, -⟩ := (codeValue_of_expr hbinding).mp h
  obtain ⟨program, hprogram, hvalue⟩ := leftIn?_eq_some_iff.mp hleft
  obtain ⟨ts, c, htokens, -, -⟩ := Production.exists_of_readExpr hread
  cases ts with
  | nil =>
    obtain ⟨us, n, hus, -⟩ := tokensFrom_eq_append htokens
    simp at hus
  | cons t ts =>
    obtain ⟨hbrace, hfunction⟩ := hstarts t ts htokens
    obtain ⟨ht, hstart⟩ :=
      Production.not_startsStatement_of_readExpr htokens hread hbrace hfunction
    obtain ⟨e', rfl⟩ := Production.eq_expr_of_readProgram htokens ht hstart hread hprogram
    obtain ⟨n, hrun⟩ := exists_of_perform hvalue
    exact programValue_expr_ne_some _ _ _ _ _ _ (programValue_of_topValue hrun)

theorem register_of_isOk {source : String} (h : (r.register name source).1.isOk = true) :
    (r.register name source).1 = .ok () := by
  generalize (r.register name source).1 = outcome at h
  cases outcome with
  | error fault => cases h
  | ok _ => rfl

/-- A text that is registered has a function, which its parser calls from then on. -/
theorem find?_register {source : String} (h : (r.register name source).1 = .ok ()) :
    ∃ v, (r.codeValue (Text.trim name) (Text.trim source)).1 = .ok v ∧ v.isCallable = true ∧
      (r.register name source).2.find? (Text.trim name) = some ⟨Text.trim name, source, v⟩ := by
  unfold register compile at h ⊢
  dsimp only at h ⊢
  split at h
  · cases h
  next hname =>
  rw [if_neg hname]
  -- the same outcome is asked for success and for the function
  generalize r.codeValue (Text.trim name) (Text.trim source) = outcome at h ⊢
  obtain ⟨fault | v, r'⟩ := outcome
  · cases h
  · dsimp only at h ⊢
    by_cases hcallable : v.isCallable = true
    · refine ⟨v, rfl, hcallable, ?_⟩
      rw [if_pos hcallable]
      exact find?_insert ⟨Text.trim name, source, v⟩ _
    · rw [if_neg hcallable] at h
      cases h

end Registry

namespace Session

open TraceViewer.Parser (declaredName? openingName? functionName? variableName?)

variable {s : Session} {source name : String}

/-- Saving a new parser keeps what registering it gave. -/
theorem find?_saveParser (hname : declaredName? source = some name)
    (h : (s.registry.register name source).1 = .ok ()) (m : String) :
    (s.saveParser source none).registry.find? m =
      (s.registry.register name source).2.find? m := by
  have hsome : (none <|> declaredName? source) = some name := hname
  unfold saveParser
  rw [hsome]
  dsimp only
  generalize s.registry.register name source = registered at h ⊢
  obtain ⟨fault | _, r⟩ := registered
  · cases h
  · have hparsers := (rests_refilter (s := { s with registry := r })).parsers
    dsimp only
    rw [registry_persist]
    split <;> exact congrArg (List.find? fun p => p.name == m) hparsers

/-- Which variables a source text leaves in its top scope, beside the name that was found in it and
the function that it is compiled to. -/
structure RunsAs (r : Registry) (source name : String) (v : Snippet.Value) : Prop where
  /-- The declaration that the text opens with gives the function. -/
  opening : ∀ opening, openingName? (Text.trim source) = some opening →
    r.leftIn? (Text.trim source) opening = some v
  /-- It gives the name too, if it is a function or if nothing in the text is like one. -/
  named : ∀ opening, openingName? (Text.trim source) = some opening →
    functionName? (Text.trim source).toList ≠ none ∨
      Parser.firstInside? functionName? source.toList = none → opening = name
  /-- The variable that is looked up has the function, where the text leaves it at all. -/
  binding : ∀ binding, Registry.binding? name (Text.trim source) = some binding →
    ∀ w, r.leftIn? (Text.trim source) binding = some w → w = v
  /-- A text that is run as an expression leaves no variable. -/
  expression : Registry.binding? name (Text.trim source) = none →
    Registry.StartsExpression (Text.trim source) →
      ∀ left, r.leftIn? (Text.trim source) left = none

/-- A new parser is registered under the name that is found in its source text, with the function
that the text leaves in the variable whose declaration it opens with. -/
theorem saveParser_named (hname : declaredName? source = some name)
    (h : (s.registry.register name source).1 = .ok ()) :
    ∃ v, (s.saveParser source none).registry.find? name = some ⟨name, source, v⟩ ∧
      v.isCallable = true ∧ RunsAs s.registry source name v := by
  obtain ⟨v, hvalue, hcallable, hfind⟩ := Registry.find?_register h
  rw [Parser.trim_declaredName hname] at hvalue hfind
  have hnamed : ∀ opening, openingName? (Text.trim source) = some opening →
      functionName? (Text.trim source).toList ≠ none ∨
        Parser.firstInside? functionName? source.toList = none → opening = name := by
    intro opening hopening hfirst
    have hdeclared := Parser.declaredName?_of_openingName? hopening hfirst
    exact Option.some.inj (hdeclared.symm.trans hname)
  refine ⟨v, (find?_saveParser hname h name).trans hfind, hcallable, ?_⟩
  constructor
  case opening =>
    intro opening hopening
    refine Registry.leftIn?_of_openingName? hopening (fun hfunction => ?_) hvalue
    exact (hnamed opening hopening (.inl hfunction)).symm
  case named => exact hnamed
  case binding => exact fun _ hbinding _ hleft => Registry.leftIn?_of_binding? hbinding hvalue hleft
  case expression =>
    exact fun hbinding hstarts => Registry.leftIn?_of_expr hbinding hstarts hvalue

/-- A text that declares the variable that it is named by. -/
def rankSource : String := "const rank = x => 1;"

theorem saveParser_named_rankSource : declaredName? rankSource = some "rank" ∧
    (({} : Registry).register "rank" rankSource).1 = .ok () ∧
      ∃ v, (({} : Session).saveParser rankSource none).registry.find? "rank" =
          some ⟨"rank", rankSource, v⟩ ∧
        ({} : Registry).leftIn? rankSource "rank" = some v := by
  have hname : declaredName? rankSource = some "rank" := by decide +kernel
  have hregister : (({} : Registry).register "rank" rankSource).1 = .ok () :=
    Registry.register_of_isOk (by decide +kernel)
  have htrim : Text.trim rankSource = rankSource := by decide +kernel
  have hopening : openingName? rankSource = some "rank" := by decide +kernel
  obtain ⟨v, hfind, -, hruns⟩ := saveParser_named (s := {}) hname hregister
  have hleft := hruns.opening "rank" (htrim ▸ hopening)
  rw [htrim] at hleft
  exact ⟨hname, hregister, v, hfind, hleft⟩

/-- A comment tells of a function of another name. -/
def commentedSource : String := "const rank = x => 1; // was function old(x)"

/-- The parser gets the name out of the comment, and the text leaves no such variable. -/
theorem saveParser_commentedSource :
    (({} : Session).saveParser commentedSource none).registry.names = ["old"] ∧
      ({} : Registry).leftIn? (Text.trim commentedSource) "old" = none ∧
      openingName? (Text.trim commentedSource) = some "rank" ∧
      (({} : Registry).leftIn? (Text.trim commentedSource) "rank").isSome = true := by
  decide +kernel

end Session

end TraceViewer
