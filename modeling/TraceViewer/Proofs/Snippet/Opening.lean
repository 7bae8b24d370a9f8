import TraceViewer.Parser.Name
import TraceViewer.Proofs.Snippet.Moving
import TraceViewer.Proofs.Snippet.RoundTrip

/-!
# How a source text opens

What the first characters of a text say about its first tokens, and what these say about the
expression that is read: only a name with an equals sign behind it begins an assignment, only the
word "function" a function with a name, and a text that begins with any other name is the same
expression when it is read as a program.
-/

namespace TraceViewer.Snippet

open TraceViewer.Text

/-! ## 1. The first tokens of a text -/

section Tokens

variable {c : Char} {word : String} {rest blanks : List Char} {acc : List Token}
  {offset bound : Nat}

theorem isIdentChar_of_isBlank (h : isBlank c = true) : isIdentChar c = false := by
  have hne (d : Char) (hd : isBlank d = false) : (c == d) = false := by
    rw [beq_eq_false_iff_ne]
    rintro rfl
    rw [h] at hd
    cases hd
  unfold isIdentChar isAlphanumeric
  rw [isAlphabetic_of_isBlank h, isNumeric_of_isBlank h, hne '_' (by decide), hne '$' (by decide)]
  rfl

/-- A test that no blank passes is failed where blanks and a character that fails it begin. -/
theorem eq_false_of_head?_blanks {f : Char → Bool} (hf : ∀ b, isBlank b = true → f b = false)
    (hblanks : ∀ b ∈ blanks, isBlank b = true) (hc : f c = false) :
    ∀ d ∈ (blanks ++ c :: rest).head?, f d = false := by
  intro d hd
  cases blanks with
  | nil =>
    cases hd
    exact hc
  | cons b blanks =>
    cases hd
    exact hf d (hblanks d List.mem_cons_self)

/-- Blanks in front of a token are skipped. -/
theorem skipTrivia_blanks (hblanks : ∀ b ∈ blanks, isBlank b = true) (hc : isBlank c = false)
    (hslash : c ≠ '/') : ∃ n, skipTrivia ⟨offset, blanks ++ c :: rest⟩ = .ok ⟨n, c :: rest⟩ := by
  induction blanks generalizing offset with
  | nil => exact ⟨offset, skipTrivia_stop hc hslash offset rest⟩
  | cons b blanks ih =>
    obtain ⟨hb, hblanks⟩ := List.forall_mem_cons.mp hblanks
    obtain ⟨n, hn⟩ : ∃ n, skipTrivia ⟨offset + b.utf8Size, blanks ++ c :: rest⟩ =
        .ok ⟨n, c :: rest⟩ := ih hblanks
    exact ⟨n, by rw [List.cons_append, skipTrivia_isBlank hb, hn]⟩

/-- A name at the start of a text is its first token. -/
theorem tokensFrom_name (hword : IsWord word) (hrest : ∀ d ∈ rest.head?, isIdentChar d = false) :
    tokensFrom (bound + 1) acc ⟨offset, word.toList ++ rest⟩ =
      tokensFrom bound (⟨.name word, offset⟩ :: acc)
        ⟨offset + byteLength word.toList, rest⟩ := by
  obtain ⟨c, cs, hchars, hc, hcs⟩ := hword
  have hslash : c ≠ '/' := by
    rintro rfl
    cases hc
  rw [hchars, List.cons_append, tokensFrom,
    skipTrivia_stop (isBlank_of_isIdentStart hc) hslash]
  dsimp only
  rw [readLexeme_name hc hcs hrest, ← hchars, String.ofList_toList]

/-- An equals sign that is no part of a comparison or an arrow is a token by itself. -/
theorem readLexeme_assign {previous : Option Lexeme} {next : Option Char}
    (hrest : ∀ d ∈ rest.head?, d ≠ '=' ∧ d ≠ '>') :
    readLexeme previous ⟨offset, '=' :: rest⟩ '=' next =
      .ok (.punct .assign, ⟨offset + 1, rest⟩) := by
  show readPunct ⟨offset, '=' :: rest⟩ = _
  cases rest with
  | nil => rfl
  | cons d ds =>
    obtain ⟨heq, hgt⟩ := hrest d rfl
    have heq : ('=' == d) = false := beq_eq_false_iff_ne.mpr heq.symm
    have hgt : ('>' == d) = false := beq_eq_false_iff_ne.mpr hgt.symm
    have hpunct : punctAt? ('=' :: d :: ds) = some (.assign, d :: ds) := by
      simp [punctAt?, Punct.all, Punct.startsAt?, Punct.spelling, stripStart?, heq, hgt]
    unfold readPunct
    rw [hpunct]
    rfl

theorem tokensFrom_assign (hblanks : ∀ b ∈ blanks, isBlank b = true)
    (hrest : ∀ d ∈ rest.head?, d ≠ '=' ∧ d ≠ '>') :
    ∃ n m, tokensFrom (bound + 1) acc ⟨offset, blanks ++ '=' :: rest⟩ =
      tokensFrom bound (⟨.punct .assign, n⟩ :: acc) ⟨m, rest⟩ := by
  obtain ⟨n, hskip⟩ : ∃ n, skipTrivia ⟨offset, blanks ++ '=' :: rest⟩ = .ok ⟨n, '=' :: rest⟩ :=
    skipTrivia_blanks hblanks (by decide) (by decide)
  refine ⟨n, n + 1, ?_⟩
  rw [tokensFrom, hskip]
  dsimp only
  rw [readLexeme_assign hrest]

end Tokens

section Source

variable {source word : String} {ts : List Token} {cs rest blanks : List Char}

/-- The first token of a text that starts with a name. -/
theorem tokenize_name (htokens : tokenize source = .ok ts) (hword : IsWord word)
    (hsource : source.toList = word.toList ++ rest)
    (hrest : ∀ d ∈ rest.head?, isIdentChar d = false) : ∃ ts', ts = ⟨.name word, 0⟩ :: ts' := by
  unfold tokenize Place.ofText at htokens
  rw [hsource] at htokens
  have htokens := (tokensFrom_name hword hrest).symm.trans htokens
  obtain ⟨us, n, rfl, -⟩ := tokensFrom_eq_append htokens
  exact ⟨us ++ [⟨.finish, n⟩], rfl⟩

/-- The first tokens of a text that starts with a name and an equals sign. -/
theorem tokenize_name_assign (htokens : tokenize source = .ok ts) (hword : IsWord word)
    (hsource : source.toList = word.toList ++ (blanks ++ '=' :: rest))
    (hblanks : ∀ b ∈ blanks, isBlank b = true) (hrest : ∀ d ∈ rest.head?, d ≠ '=' ∧ d ≠ '>') :
    ∃ n ts', ts = ⟨.name word, 0⟩ :: ⟨.punct .assign, n⟩ :: ts' := by
  have hend : ∀ d ∈ (blanks ++ '=' :: rest).head?, isIdentChar d = false :=
    eq_false_of_head?_blanks (fun _ => isIdentChar_of_isBlank) hblanks (by decide)
  unfold tokenize Place.ofText at htokens
  rw [hsource] at htokens
  have htokens := (tokensFrom_name hword hend).symm.trans htokens
  -- there are characters left for a second token
  rw [← List.append_assoc, List.length_append, List.length_cons (a := '='), ← Nat.add_assoc]
    at htokens
  obtain ⟨n, m, hassign⟩ := tokensFrom_assign hblanks hrest
  obtain ⟨us, k, rfl, -⟩ := tokensFrom_eq_append (hassign.symm.trans htokens)
  exact ⟨n, us ++ [⟨.finish, k⟩], rfl⟩

theorem toNat_lt_of_isAlphanum {c : Char} (h : c.isAlphanum = true) : c.toNat < 0x80 := by
  delta Char.isAlphanum Char.isAlpha Char.isUpper Char.isLower Char.isDigit at h
  simp only [Bool.or_eq_true, Bool.and_eq_true, decide_eq_true_eq, ge_iff_le,
    UInt32.le_iff_toNat_le] at h
  show c.val.toNat < 0x80
  have hupper : 'Z'.val.toNat = 90 := rfl
  have hlower : 'z'.val.toNat = 122 := rfl
  have hdigit : '9'.val.toNat = 57 := rfl
  omega

theorem isIdentChar_of_isNameChar {c : Char} (h : Parser.isNameChar c = true) :
    isIdentChar c = true := by
  unfold Parser.isNameChar at h
  unfold isIdentChar
  rw [Bool.or_assoc, Bool.or_eq_true] at h ⊢
  refine h.imp_left fun hc => ?_
  have hascii := toNat_lt_of_isAlphanum hc
  unfold isAlphanumeric
  rwa [isAlphabetic_of_lt hascii, isNumeric_of_lt hascii]

theorem isIdentStart_of_isNameStart {c : Char} (h : Parser.isNameStart c = true) :
    isIdentStart c = true := by
  unfold Parser.isNameStart at h
  unfold isIdentStart
  rw [Bool.or_assoc, Bool.or_eq_true] at h ⊢
  refine h.imp_left fun hc => ?_
  rwa [isAlphabetic_of_lt (toNat_lt_of_isAlphanum (Bool.or_eq_true_iff.mpr (.inl hc)))]

theorem isNameChar_of_isNameStart {c : Char} (h : Parser.isNameStart c = true) :
    Parser.isNameChar c = true := by
  unfold Parser.isNameStart at h
  unfold Parser.isNameChar
  rw [Bool.or_assoc, Bool.or_eq_true] at h ⊢
  exact h.imp_left fun hc => Bool.or_eq_true_iff.mpr (.inl hc)

/-- A text that starts by giving a variable a value. -/
theorem exists_of_assignedName? {found : List Char} (h : Parser.assignedName? cs = some found) :
    ∃ word blanks rest, cs = String.toList word ++ (blanks ++ '=' :: rest) ∧ IsWord word ∧
      (∀ b ∈ blanks, isBlank b = true) ∧ ∀ d ∈ rest.head?, d ≠ '=' ∧ d ≠ '>' := by
  unfold Parser.assignedName? at h
  dsimp only at h
  split at h
  · cases h
  next hstart =>
  split at h
  · next rest hdrop =>
    split at h
    · cases h
    next hnot =>
    cases cs with
    | nil => cases hdrop
    | cons c ds =>
      have hc : Parser.isNameStart c = true := by simpa using hstart
      rw [List.dropWhile_cons_of_pos (isNameChar_of_isNameStart hc)] at hdrop
      have hname := List.takeWhile_append_dropWhile (p := Parser.isNameChar) (l := ds)
      have hblanks := List.takeWhile_append_dropWhile (p := isBlank)
        (l := ds.dropWhile Parser.isNameChar)
      refine ⟨.ofList (c :: ds.takeWhile Parser.isNameChar),
        (ds.dropWhile Parser.isNameChar).takeWhile isBlank, rest, ?_, ?_, ?_, ?_⟩
      · have hdrop : (ds.dropWhile Parser.isNameChar).dropWhile isBlank = '=' :: rest := hdrop
        rw [String.toList_ofList, ← hdrop, hblanks, List.cons_append, hname]
      · refine ⟨c, _, String.toList_ofList, isIdentStart_of_isNameStart hc, fun d hd => ?_⟩
        exact isIdentChar_of_isNameChar (List.mem_takeWhile_imp hd)
      · exact fun b hb => List.mem_takeWhile_imp hb
      · intro d hd
        simp only [Option.mem_def] at hd
        simp only [hd, Bool.or_eq_true, beq_iff_eq, Option.some.injEq, not_or] at hnot
        exact hnot.symm
  · cases h

/-- What follows a word is behind all blanks, of which there is at least one. -/
theorem afterWord?_eq_some_iff : Parser.afterWord? word cs = some rest ↔
    (∃ b blanks, cs = word.toList ++ b :: (blanks ++ rest) ∧ ∀ c ∈ b :: blanks, isBlank c = true) ∧
      ∀ c ∈ rest.head?, isBlank c = false := by
  unfold Parser.afterWord?
  constructor
  · intro h
    obtain ⟨ds, hstrip, hafter⟩ := Option.bind_eq_some_iff.mp h
    rw [stripStart?_eq_some_iff.mp hstrip]
    cases ds with
    | nil => cases hafter
    | cons b ds =>
      unfold Parser.afterBlanks? at hafter
      dsimp only at hafter
      split at hafter
      · next hb =>
        cases hafter
        refine ⟨⟨b, ds.takeWhile isBlank, ?_, List.forall_mem_cons.mpr ⟨hb, ?_⟩⟩, fun c hc => ?_⟩
        · rw [show dropBlanks ds = ds.dropWhile isBlank from rfl, List.takeWhile_append_dropWhile]
        · exact fun c hc => List.mem_takeWhile_imp hc
        · have hnot := List.head?_dropWhile_not isBlank ds
          rwa [show (ds.dropWhile isBlank).head? = some c from hc] at hnot
      · cases hafter
  · rintro ⟨⟨b, blanks, rfl, hblanks⟩, hend⟩
    obtain ⟨hb, hblanks⟩ := List.forall_mem_cons.mp hblanks
    have hdrop : dropBlanks (blanks ++ rest) = rest := (takeWhile_stop hblanks hend).2
    rw [stripStart?_eq_some_iff.mpr rfl, Option.bind_some]
    unfold Parser.afterBlanks?
    dsimp only
    rw [if_pos hb, hdrop]

theorem eq_some_of_orElse {α : Type} {x : α} {a b : Option α} (h : (a <|> b) = some x) :
    a = some x ∨ b = some x := by
  cases a with
  | none => exact .inr h
  | some _ => exact .inl h

def declarators : List String := ["const", "let", "var"]

/-- Of the words that declare variables a text starts with one at most. -/
theorem afterDeclarator?_eq_some_iff : Parser.afterDeclarator? cs = some rest ↔
    ∃ word ∈ declarators, Parser.afterWord? word cs = some rest := by
  unfold Parser.afterDeclarator?
  constructor
  · intro h
    rcases eq_some_of_orElse h with h | h
    · exact ⟨"const", by decide, h⟩
    rcases eq_some_of_orElse h with h | h
    · exact ⟨"let", by decide, h⟩
    · exact ⟨"var", by decide, h⟩
  · rintro ⟨word, hword, hafter⟩
    obtain ⟨⟨b, blanks, rfl, -⟩, -⟩ := afterWord?_eq_some_iff.mp hafter
    simp only [declarators, List.mem_cons, List.not_mem_nil, or_false] at hword
    rcases hword with rfl | rfl | rfl
    · rw [hafter]
      rfl
    · rw [show Parser.afterWord? "const" ("let".toList ++ _) = none from rfl, hafter]
      rfl
    · rw [show Parser.afterWord? "const" ("var".toList ++ _) = none from rfl,
        show Parser.afterWord? "let" ("var".toList ++ _) = none from rfl, hafter]
      rfl

theorem isWord_of_mem_declarators {word : String} (h : word ∈ declarators) : IsWord word := by
  rw [isWord_iff]
  have hall : ∀ w ∈ declarators,
      (w.toList.head?.any isIdentStart && w.toList.tail.all isIdentChar) = true := by
    decide
  exact hall word h

/-- The first tokens of a text whose start is taken for the assignment of a variable. -/
theorem tokenize_of_boundName? {found : List Char} (htokens : tokenize source = .ok ts)
    (h : Parser.boundName? source.toList = some found) :
    (∃ word ∈ declarators, ∃ ts', ts = ⟨.name word, 0⟩ :: ts') ∨
      ∃ word n ts', word.toList <+: source.toList ∧
        ts = ⟨.name word, 0⟩ :: ⟨.punct .assign, n⟩ :: ts' := by
  unfold Parser.boundName? at h
  rcases eq_some_of_orElse h with hdeclared | hassigned
  · obtain ⟨rest, hafter, -⟩ := Option.bind_eq_some_iff.mp hdeclared
    obtain ⟨word, hword, hafter⟩ := afterDeclarator?_eq_some_iff.mp hafter
    obtain ⟨⟨b, blanks, hsource, hblanks⟩, -⟩ := afterWord?_eq_some_iff.mp hafter
    refine .inl ⟨word, hword, tokenize_name htokens (isWord_of_mem_declarators hword) hsource ?_⟩
    rintro _ ⟨⟩
    exact isIdentChar_of_isBlank (hblanks b List.mem_cons_self)
  · obtain ⟨word, blanks, rest, hsource, hword, hblanks, hrest⟩ := exists_of_assignedName? hassigned
    obtain ⟨n, ts', hts⟩ := tokenize_name_assign htokens hword hsource hblanks hrest
    exact .inr ⟨word, n, ts', hsource ▸ List.prefix_append _ _, hts⟩

/-- The first token of a text that starts with the letters of a word. -/
theorem tokenize_of_hasStart {start : String} (hstart : IsWord start)
    (htokens : tokenize source = .ok ts) (h : hasStart source start = true) :
    ∃ word ts', start.toList <+: word.toList ∧ ts = ⟨.name word, 0⟩ :: ts' := by
  obtain ⟨more, hmore⟩ := List.isPrefixOf_iff_prefix.mp h
  obtain ⟨c, ds, hchars, hc, hds⟩ := hstart
  let cs := ds ++ more.takeWhile isIdentChar
  have hcs : ∀ d ∈ cs, isIdentChar d = true := by
    intro d hd
    rcases List.mem_append.mp hd with hd | hd
    · exact hds d hd
    · exact List.mem_takeWhile_imp hd
  have hword : String.toList (.ofList (c :: cs)) = start.toList ++ more.takeWhile isIdentChar := by
    rw [String.toList_ofList, hchars, List.cons_append]
  have hsource :
      source.toList = String.toList (.ofList (c :: cs)) ++ more.dropWhile isIdentChar := by
    rw [hword, List.append_assoc, List.takeWhile_append_dropWhile, hmore]
  have hend : ∀ d ∈ (more.dropWhile isIdentChar).head?, isIdentChar d = false := by
    intro d hd
    have hnot := List.head?_dropWhile_not isIdentChar more
    rwa [Option.mem_def.mp hd] at hnot
  obtain ⟨ts', hts⟩ := tokenize_name htokens ⟨c, cs, String.toList_ofList, hc, hcs⟩ hsource hend
  exact ⟨_, ts', hword ▸ List.prefix_append _ _, hts⟩

end Source

/-! ## 2. What is read behind the head of an expression -/

/-- Expressions that are made of another one and of tokens behind it. -/
def Expr.isGrown : Expr → Bool
  | .member _ _ _ | .index _ _ _ | .call _ _ _ | .update _ _ _ | .binary _ _ _ | .logical _ _ _
  | .cond _ _ _ => true
  | _ => false

theorem Cursor.lexeme_of_tokens {c c' : Cursor} (h : c'.tokens = c.tokens) :
    c'.lexeme = c.lexeme := by
  unfold Cursor.lexeme
  rw [h]

theorem Cursor.tokens_advance {c c' : Cursor} (h : c'.tokens = c.tokens) :
    c'.advance.tokens = c.advance.tokens := by
  obtain ⟨ts, i, j⟩ := c
  obtain ⟨ts', i', j'⟩ := c'
  obtain rfl : ts' = ts := h
  rcases ts' with _ | ⟨_, _ | ⟨_, _⟩⟩ <;> rfl

theorem Cursor.advance_at (c : Cursor) (k : Nat) :
    { c with depth := k }.advance = { c.advance with depth := k } := by
  obtain ⟨ts, i, j⟩ := c
  rcases ts with _ | ⟨_, _ | ⟨_, _⟩⟩ <;> rfl

/-- Behind the head, which ends at the first cursor, nothing more is read, or it becomes part of
what is read, and that does not start with an equals sign. -/
def ReadsOn (head : Expr) (c : Cursor) (e : Expr) (c' : Cursor) : Prop :=
  (e = head ∧ c'.tokens = c.tokens) ∨ (e.isGrown = true ∧ c.lexeme ≠ .punct .assign)

/-- An expression with such a head is read. -/
def Begins (Q : Expr → Cursor → Prop) (e : Expr) (c' : Cursor) : Prop :=
  ∃ head c, Q head c ∧ ReadsOn head c e c'

namespace ReadsOn

variable {head e d : Expr} {c c' c'' : Cursor}

theorem of_tokens (h : c'.tokens = c.tokens) : ReadsOn head c head c' := .inl ⟨rfl, h⟩

theorem trans (h : ReadsOn head c e c') (g : ReadsOn e c' d c'') : ReadsOn head c d c'' := by
  rcases g with ⟨rfl, htokens⟩ | ⟨hgrown, hne⟩
  · rcases h with ⟨rfl, h⟩ | hgrown
    · exact .inl ⟨rfl, htokens.trans h⟩
    · exact .inr hgrown
  · rcases h with ⟨-, h⟩ | ⟨-, hne⟩
    · exact .inr ⟨hgrown, Cursor.lexeme_of_tokens h ▸ hne⟩
    · exact .inr ⟨hgrown, hne⟩

theorem isGrown (h : ReadsOn head c e c') (hhead : head.isGrown = true) : e.isGrown = true := by
  rcases h with ⟨rfl, -⟩ | ⟨hgrown, -⟩
  · exact hhead
  · exact hgrown

/-- What has not grown is the head itself. -/
theorem eq_of_not_isGrown (h : ReadsOn head c e c') (he : e.isGrown = false) :
    head = e ∧ c'.tokens = c.tokens := by
  rcases h with ⟨rfl, htokens⟩ | ⟨hgrown, -⟩
  · exact ⟨rfl, htokens⟩
  · rw [he] at hgrown
    cases hgrown

end ReadsOn

theorem Begins.readsOn {Q : Expr → Cursor → Prop} {e d : Expr} {c c' : Cursor} (h : Begins Q e c)
    (hd : ReadsOn e c d c') : Begins Q d c' := by
  obtain ⟨head, c₀, hhead, he⟩ := h
  exact ⟨head, c₀, hhead, he.trans hd⟩

namespace Production

section Heads

variable {inner : Level} {c c' : Cursor} {Q : Expr → Cursor → Prop}

/-- Whether a token was taken that is no equals sign; otherwise the cursor has not moved. -/
def Passed (c : Cursor) (found : Bool) (c' : Cursor) : Prop :=
  if found = true then c.lexeme ≠ .punct .assign else c' = c

theorem endsAt_eat_passed (c : Cursor) (p : Punct) (hp : p ≠ .assign) :
    EndsAt c (eat p) (Passed c) := by
  intro found c' h
  have hfound := endsAt_eat c p found c' h
  dsimp only at hfound
  unfold Passed
  split at hfound
  · next htrue =>
    rw [if_pos htrue, hfound.1]
    exact fun heq => hp (Lexeme.punct.inj heq)
  · next hfalse =>
    rw [if_neg hfalse]
    exact hfound

theorem Passed.or {a b : Bool} {c'' : Cursor} (h : Passed c a c') (g : Passed c' b c'') :
    Passed c (a || b) c'' := by
  cases a with
  | true => exact h
  | false =>
    have hsame : c' = c := h
    rw [hsame] at g
    exact g

theorem endsAt_linksFrom (links : Nat) (head : Expr) (rounds : Nat) (c : Cursor) :
    EndsAt c (linksFrom inner links head rounds) (ReadsOn head c) := by
  induction rounds generalizing links head c with
  | zero => exact fails_stall.endsAt
  | succ rounds ih =>
    -- behind a first link it does not matter what follows
    have hgrown {e : Expr} (he : e.isGrown = true) (hc : c.lexeme ≠ .punct .assign) (c' : Cursor) :
        EndsAt c' (linksFrom inner (links + 1) e rounds) (ReadsOn head c) :=
      fun d c'' hd => .inr ⟨(ih _ _ _ d c'' hd).isGrown he, hc⟩
    refine (endsAt_eat_passed c _ (by decide)).bind fun guarded c₁ h₁ => ?_
    refine (endsAt_eat_passed c₁ _ (by decide)).bind fun isIndex c₂ h₂ => ?_
    have h₂ := h₁.or h₂
    split
    · next h =>
      rw [h, Bool.or_true] at h₂
      exact .second fun _ _ => .second fun key _ => .second fun _ c' => hgrown rfl h₂ c'
    next h =>
    rw [Bool.not_eq_true _ |>.mp h, Bool.or_false] at h₂
    refine (endsAt_eat_passed c₂ _ (by decide)).bind fun isCall c₃ h₃ => ?_
    have h₃ := h₂.or h₃
    split
    · next h =>
      rw [h, Bool.or_true] at h₃
      exact .second fun _ _ => .second fun args c' => hgrown rfl h₃ c'
    next h =>
    rw [Bool.not_eq_true _ |>.mp h, Bool.or_false] at h₃
    have hmember (isMember : Bool) (c₄ : Cursor) (h₄ : Passed c isMember c₄) :
        EndsAt c₄ (memberLink inner links head guarded rounds isMember) (ReadsOn head c) := by
      unfold memberLink
      split
      · next h =>
        rw [h] at h₄
        refine .second fun _ c₅ => .get (.second fun _ c' => ?_)
        split
        · exact hgrown rfl h₄ c'
        · exact fails_fail.endsAt
      · next h =>
        rw [Bool.not_eq_true _ |>.mp h] at h₄
        obtain rfl : c₄ = c := h₄
        rintro _ _ ⟨⟩
        exact .of_tokens rfl
    split
    · next h =>
      rw [h] at h₃
      exact hmember true c₃ h₃
    · next h =>
      rw [Bool.not_eq_true _ |>.mp h] at h₃
      exact (endsAt_eat_passed c₃ _ (by decide)).bind fun isMember c₄ h₄ =>
        hmember isMember c₄ (h₃.or h₄)

theorem endsAt_advance (c : Cursor) : EndsAt c advance fun _ c' => c' = c.advance := by
  rintro _ _ ⟨⟩
  rfl

theorem endsAt_bound (c : Cursor) : EndsAt c bound fun _ c' => c' = c := by
  rintro _ _ ⟨⟩
  rfl

theorem endsAt_postfixed (h : EndsAt c (primary inner) Q) :
    EndsAt c (postfixed inner) (Begins Q) := by
  refine h.bind fun head c₁ hhead => (endsAt_bound c₁).bind fun rounds c₂ hsame => ?_
  subst hsame
  refine (endsAt_linksFrom 0 head rounds c₂).bind fun e c₃ he => .get ?_
  split
  · next hupdate =>
    split
    · next name =>
      -- a name has no links, so the operator stands right behind it
      obtain ⟨rfl, htokens⟩ := he.eq_of_not_isGrown rfl
      have hne : c₂.lexeme ≠ .punct .assign := by
        intro hassign
        unfold Cursor.atPunct at hupdate
        rw [Cursor.lexeme_of_tokens htokens, hassign] at hupdate
        cases hupdate
      rintro _ _ ⟨⟩
      exact ⟨_, c₂, hhead, .inr ⟨rfl, hne⟩⟩
    · exact fails_fail.endsAt
  · exact .pure ⟨head, c₂, hhead, he⟩

theorem endsAt_nested {α : Type} {p : Production α} {R : α → Cursor → Prop}
    (h : EndsAt { c with depth := c.depth + 1 } p R) : EndsAt c (nested p) fun a c' =>
      ∃ c₁, R a c₁ ∧ c'.tokens = c₁.tokens := by
  have hrest : EndsAt { c with depth := c.depth + 1 } (do
      let result ← p
      ascend 1
      return result) fun a c' => ∃ c₁, R a c₁ ∧ c'.tokens = c₁.tokens := by
    refine h.bind fun a c₁ ha => ?_
    rintro _ _ ⟨⟩
    exact ⟨c₁, ha, rfl⟩
  intro a c' ha
  unfold nested at ha
  rw [descend_bind] at ha
  split at ha
  · cases ha
  · exact hrest a c' ha

/-- An operand starts with its head where no operator stands in front of it. -/
theorem endsAt_unary {n : Nat} (hunsigned : isPrefix c.lexeme = false)
    (h : EndsAt { c with depth := c.depth + 1 } (primary (level n)) Q) :
    EndsAt c (level (n + 1)).unary (Begins Q) := by
  have hunary : EndsAt { c with depth := c.depth + 1 } (unaryLevel (level n)) (Begins Q) := by
    obtain ⟨hstep, hop⟩ := Bool.or_eq_false_iff.mp hunsigned
    have hstep : ({ c with depth := c.depth + 1 }.atPunct .plusPlus ||
        { c with depth := c.depth + 1 }.atPunct .minusMinus) = false := hstep
    have hop : unaryOp? { c with depth := c.depth + 1 }.lexeme = none :=
      Option.isNone_iff_eq_none.mp (Option.isSome_eq_false_iff.mp hop)
    refine .get ?_
    rw [hstep, hop]
    exact endsAt_postfixed h
  intro e c' he
  obtain ⟨c₁, hbegins, htokens⟩ := endsAt_nested hunary e c' he
  exact hbegins.readsOn (.of_tokens htokens)

section Rank

variable {α : Type} {op? : Punct → Option α} {join : α → Expr → Expr → Expr}
  (hassign : op? .assign = none) (hjoin : ∀ op a b, (join op a b).isGrown = true)
include hassign hjoin

theorem endsAt_operatorsFrom (operand : Production Expr) (links : Nat) (left : Expr) (rounds : Nat)
    (c : Cursor) :
    EndsAt c (operatorsFrom op? join operand links left rounds) (ReadsOn left c) := by
  induction rounds generalizing links left c with
  | zero => exact fails_stall.endsAt
  | succ rounds ih =>
    refine .get ?_
    dsimp only
    split
    · rintro _ _ ⟨⟩
      exact .of_tokens rfl
    · next op hop =>
      have hne : c.lexeme ≠ .punct .assign := by
        intro hc
        rw [hc] at hop
        exact absurd (hassign.symm.trans hop) nofun
      refine .second fun _ _ => .second fun _ _ => .second fun right c' d c'' hd => ?_
      exact .inr ⟨(ih _ _ _ d c'' hd).isGrown (hjoin op left right), hne⟩

theorem endsAt_operators {operand : Production Expr} (h : EndsAt c operand (Begins Q)) :
    EndsAt c (operators op? join operand) (Begins Q) := by
  refine h.bind fun left c₁ hleft => (endsAt_bound c₁).bind fun rounds c₂ hsame => ?_
  subst hsame
  exact fun e c' he => hleft.readsOn (endsAt_operatorsFrom hassign hjoin _ _ _ _ _ e c' he)

end Rank

theorem endsAt_conditional (h : EndsAt c inner.unary (Begins Q)) :
    EndsAt c (conditional inner) (Begins Q) := by
  have hbinary (op : BinaryOp) (a b : Expr) : (Expr.binary op a b).isGrown = true := rfl
  have hlogical (op : LogicalOp) (a b : Expr) : (Expr.logical op a b).isGrown = true := rfl
  have hadditive : EndsAt c (additive inner) (Begins Q) :=
    endsAt_operators rfl hbinary (endsAt_operators rfl hbinary h)
  have hequality : EndsAt c (equality inner) (Begins Q) :=
    endsAt_operators rfl hbinary (endsAt_operators rfl hbinary hadditive)
  have hdisjunction : EndsAt c (disjunction inner) (Begins Q) :=
    endsAt_operators rfl hlogical (endsAt_operators rfl hlogical hequality)
  refine hdisjunction.bind fun test c₁ htest => ?_
  refine (endsAt_eat_passed c₁ _ (by decide)).bind fun isCond c₂ hpassed => ?_
  split
  · next hcond =>
    rw [hcond] at hpassed
    refine .second fun yes _ => .second fun _ _ => .second fun no _ => .pure ?_
    exact htest.readsOn (.inr ⟨rfl, hpassed⟩)
  · next hcond =>
    rw [Bool.not_eq_true _ |>.mp hcond] at hpassed
    exact .pure (htest.readsOn (.of_tokens (congrArg Cursor.tokens hpassed)))

end Heads

/-! ## 3. Expressions that start with a name -/

section Names

variable {inner : Level} {c c' : Cursor} {Q : Expr → Cursor → Prop} {word : String} {n : Nat}

/-- What a name is as the head of an expression: a function, of which the name is the keyword, a
variable, or one of the values that have a name. -/
inductive NameHead (inner : Level) (word : String) (c : Cursor) : Expr → Cursor → Prop
  | function {f : Function} {c' : Cursor} : word = "function" →
      functionRest inner false c.advance = .ok f c' → NameHead inner word c (.function f) c'
  | ident : isReserved word = false → NameHead inner word c (.ident word) c.advance
  | constant {e : Expr} : word ∉ declarators → word ≠ "function" →
      (∀ name, e ≠ .ident name) → (∀ f, e ≠ .function f) → e.isGrown = false →
      NameHead inner word c e c.advance

theorem endsAt_primary_name (hc : c.lexeme = .name word) :
    EndsAt c (primary inner) (NameHead inner word c) := by
  refine .get ((endsAt_advance c).bind fun _ c' hsame => ?_)
  subst hsame
  rw [hc]
  dsimp only
  have hconstant {w : String} (h : (word == w) = true) (hw : w ∉ declarators ∧ w ≠ "function")
      {e : Expr} (hident : ∀ name, e ≠ .ident name) (hfunction : ∀ f, e ≠ .function f)
      (he : e.isGrown = false) : NameHead inner word c e c.advance := by
    obtain rfl : word = w := eq_of_beq h
    exact .constant hw.1 hw.2 hident hfunction he
  split
  · next h => exact .pure (hconstant h (by decide) nofun nofun rfl)
  split
  · next h => exact .pure (hconstant h (by decide) nofun nofun rfl)
  split
  · next h => exact .pure (hconstant h (by decide) nofun nofun rfl)
  split
  · next h => exact .pure (hconstant h (by decide) nofun nofun rfl)
  split
  · next h =>
    have hself : EndsAt c.advance (functionRest inner false) fun f c' =>
        functionRest inner false c.advance = .ok f c' := fun _ _ h => h
    exact hself.bind fun f c' hf => .pure (.function (eq_of_beq h) hf)
  split
  · exact fails_throw.endsAt
  · next h => exact .pure (.ident (Bool.not_eq_true _ |>.mp h))

theorem endsAt_arrowParams?_name (hc : c.lexeme = .name word) :
    EndsAt c arrowParams? fun names c' =>
      if names.isSome = true then isReserved word = false ∧ c.ahead 1 = .punct .arrow
      else c' = c := by
  refine .get ?_
  rw [hc]
  split
  · next name hname harrow =>
    cases hname
    split
    · exact .pure rfl
    · next h =>
      refine .second fun _ _ => .second fun _ _ => .pure ?_
      exact ⟨Bool.not_eq_true _ |>.mp h, harrow⟩
  · next h => cases h
  · exact .pure rfl

theorem endsAt_assignmentLevel (hc : c.lexeme = .name word) (h : EndsAt c (conditional inner) Q) :
    EndsAt c (assignmentLevel inner) fun e c' =>
      (isReserved word = false ∧ c.ahead 1 = .punct .arrow ∧
        ∃ params body, e = .function (.mk none params body)) ∨
      (Q e c' ∧ opAt? assignmentOp? c'.lexeme = none) ∨
      ∃ name op d c₁, e = .assign name op d ∧ Q (.ident name) c₁ ∧
        opAt? assignmentOp? c₁.lexeme = some op := by
  refine (endsAt_arrowParams?_name hc).bind fun names c₁ hnames => ?_
  split
  · next names =>
    obtain ⟨hreserved, harrow⟩ := hnames
    refine .get ?_
    split
    · exact .second fun body _ => .pure (.inl ⟨hreserved, harrow, _, _, rfl⟩)
    · exact .second fun body _ => .pure (.inl ⟨hreserved, harrow, _, _, rfl⟩)
  · obtain rfl : c₁ = c := hnames
    refine h.bind fun target c₂ htarget => .get ?_
    dsimp only
    split
    · next hop => exact .pure (.inr (.inl ⟨htarget, hop⟩))
    · next op hop =>
      split
      · next name =>
        exact .second fun _ _ => .second fun d _ =>
          .pure (.inr (.inr ⟨name, op, d, c₂, rfl, htarget, hop⟩))
      · exact fails_fail.endsAt

/-- What comes of an assignment that starts with a name: an arrow function, an expression that the
name begins, or an assignment to what it begins. -/
def NameBegins (n : Nat) (word : String) (c : Cursor) (e : Expr) (c' : Cursor) : Prop :=
  let Q := Begins (NameHead (level n) word { c with depth := c.depth + 2 })
  (isReserved word = false ∧ c.ahead 1 = .punct .arrow ∧
      ∃ params body, e = .function (.mk none params body)) ∨
    (Q e c' ∧ opAt? assignmentOp? c'.lexeme = none) ∨
    ∃ name op d c₁, e = .assign name op d ∧ Q (.ident name) c₁ ∧
      opAt? assignmentOp? c₁.lexeme = some op

theorem endsAt_assignment_name (hc : c.lexeme = .name word) (hword : word ≠ "typeof") :
    EndsAt c (level (n + 2)).assignment fun e c' =>
      ∃ c₁, NameBegins n word c e c₁ ∧ c'.tokens = c₁.tokens := by
  have hunsigned : isPrefix (.name word) = false := by
    show (unaryOp? (.name word)).isSome = false
    rw [unaryOp?_name hword]
    rfl
  have hprimary : EndsAt { c with depth := c.depth + 2 } (primary (level n))
      (NameHead (level n) word { c with depth := c.depth + 2 }) := endsAt_primary_name hc
  have hunary := endsAt_unary (c := { c with depth := c.depth + 1 }) (hc ▸ hunsigned) hprimary
  exact endsAt_nested (endsAt_assignmentLevel hc (endsAt_conditional hunary))

/-- No expression starts with a word that declares variables. -/
theorem not_assignment_declarator (hc : c.lexeme = .name word) (hword : word ∈ declarators) :
    EndsAt c (level (n + 2)).assignment fun _ _ => False := by
  have hreserved : ∀ w ∈ declarators, isReserved w = true ∧ w ≠ "function" ∧ w ≠ "typeof" := by
    decide
  obtain ⟨hreserved, hfunction, htypeof⟩ := hreserved word hword
  have hhead {e : Expr} {c₁ c₂ : Cursor} (h : NameHead (level n) word c₁ e c₂) : False := by
    cases h with
    | function hf => exact hfunction hf
    | ident hi =>
      rw [hreserved] at hi
      cases hi
    | constant hnot => exact hnot hword
  intro e c' he
  obtain ⟨c₁, hbegins, -⟩ := endsAt_assignment_name hc htypeof e c' he
  rcases hbegins with ⟨hi, -⟩ | ⟨⟨_, _, h, -⟩, -⟩ | ⟨_, _, _, _, -, ⟨_, _, h, -⟩, -⟩
  · rw [hreserved] at hi
    cases hi
  · exact hhead h
  · exact hhead h

/-- Where a name other than the word "function" begins it, a function has no name of its own. -/
theorem unnamed_of_name (hc : c.lexeme = .name word) (hfunction : word ≠ "function")
    (htypeof : word ≠ "typeof") :
    EndsAt c (level (n + 2)).assignment fun e _ => ∀ f, e = .function f → f.name = none := by
  rintro _ c' he f rfl
  obtain ⟨c₁, hbegins, -⟩ := endsAt_assignment_name hc htypeof _ c' he
  rcases hbegins with ⟨-, -, params, body, heq⟩ | ⟨⟨_, _, h, hon⟩, -⟩ | ⟨_, _, _, _, heq, -⟩
  · cases heq
    rfl
  · obtain ⟨rfl, -⟩ := hon.eq_of_not_isGrown rfl
    cases h with
    | function hf => exact absurd hf hfunction
    | constant _ _ _ hnot => exact absurd rfl (hnot f)
  · cases heq

/-- Where the word "function" begins it, an expression that is a function is nothing else. -/
theorem functionRest_of_assignment (hc : c.lexeme = .name "function") {f : Function}
    (h : (level (n + 2)).assignment c = .ok (.function f) c') :
    ∃ c₁, functionRest (level n) false { c with depth := c.depth + 2 }.advance = .ok f c₁ ∧
      c'.tokens = c₁.tokens := by
  obtain ⟨c₁, hbegins, htokens⟩ := endsAt_assignment_name hc (by decide) _ c' h
  rcases hbegins with ⟨hi, -⟩ | ⟨⟨_, c₂, hhead, hon⟩, -⟩ | ⟨_, _, _, _, heq, -⟩
  · exact absurd hi (by decide)
  · obtain ⟨rfl, hsame⟩ := hon.eq_of_not_isGrown rfl
    cases hhead with
    | function _ hf => exact ⟨c₂, hf, htokens.trans hsame⟩
    | constant _ _ _ hnot => exact absurd rfl (hnot f)
  · cases heq

/-! ## 4. Expressions that start with an assignment -/

/-- No operand starts with an equals sign. -/
theorem not_unary_assign (hc : c.lexeme = .punct .assign) (n : Nat) :
    EndsAt c (level n).unary fun _ _ => False := by
  cases n with
  | zero => exact fails_throw.endsAt
  | succ n =>
    have hprimary : EndsAt { c with depth := c.depth + 1 } (primary (level n))
        fun _ _ => False := by
      have hc : { c with depth := c.depth + 1 }.lexeme = .punct .assign := hc
      refine .get (.second fun _ _ => ?_)
      rw [hc]
      exact fails_throw.endsAt
    have hunsigned : isPrefix c.lexeme = false := by
      rw [hc]
      rfl
    intro e c' he
    obtain ⟨_, _, hfalse, -⟩ := endsAt_unary hunsigned hprimary e c' he
    exact hfalse

/-- Nor does what follows the operator "typeof". -/
theorem not_assignment_typeof (hc : c.lexeme = .name "typeof")
    (hnext : c.advance.lexeme = .punct .assign) :
    EndsAt c (level (n + 2)).assignment fun _ _ => False := by
  have hadvance : { c with depth := c.depth + 2 }.advance.lexeme = .punct .assign := by
    rw [Cursor.advance_at]
    exact hnext
  have hunary : EndsAt { c with depth := c.depth + 2 } (unaryLevel (level n)) fun _ _ => False := by
    have hc : { c with depth := c.depth + 2 }.lexeme = .name "typeof" := hc
    have hpunct (p : Punct) : { c with depth := c.depth + 2 }.atPunct p = false := by
      unfold Cursor.atPunct
      rw [hc]
    refine .get ?_
    rw [hpunct, hpunct, hc]
    refine (endsAt_advance _).bind fun _ c₁ hsame => ?_
    subst hsame
    exact (not_unary_assign hadvance n).bind fun _ _ h => h.elim
  have hnested : EndsAt { c with depth := c.depth + 1 } (level (n + 1)).unary
      (Begins fun _ _ => False) := by
    intro e c' he
    obtain ⟨_, hfalse, -⟩ := endsAt_nested hunary e c' he
    exact hfalse.elim
  intro e c' he
  obtain ⟨c₁, hbegins, -⟩ :=
    endsAt_nested (endsAt_assignmentLevel hc (endsAt_conditional hnested)) e c' he
  rcases hbegins with ⟨hi, -⟩ | ⟨⟨_, _, hfalse, -⟩, -⟩ | ⟨_, _, _, _, -, ⟨_, _, hfalse, -⟩, -⟩
  · exact absurd hi (by decide)
  · exact hfalse
  · exact hfalse

/-- A name with an equals sign behind it is assigned to. -/
theorem assigns_of_name {i j : Nat} {ts : List Token}
    (hc : c.tokens = ⟨.name word, i⟩ :: ⟨.punct .assign, j⟩ :: ts) (hfunction : word ≠ "function") :
    EndsAt c (level (n + 2)).assignment fun e _ => ∃ d, e = .assign word none d := by
  have hlexeme : c.lexeme = .name word := by
    unfold Cursor.lexeme
    rw [hc]
  have hnext (k : Nat) : { c with depth := k }.advance.lexeme = .punct .assign := by
    unfold Cursor.advance Cursor.lexeme
    rw [hc]
  by_cases htypeof : word = "typeof"
  · subst htypeof
    exact fun e c' he => (not_assignment_typeof hlexeme (hnext c.depth) e c' he).elim
  intro e c' he
  obtain ⟨c₁, hbegins, -⟩ := endsAt_assignment_name hlexeme htypeof e c' he
  -- behind the name there is nothing that an expression could go on with
  have hhead {head d : Expr} {c₂ c₃ : Cursor}
      (h : NameHead (level n) word { c with depth := c.depth + 2 } head c₂)
      (hon : ReadsOn head c₂ d c₃) : head = d ∧ c₃.lexeme = .punct .assign := by
    have hc₂ : c₂.lexeme = .punct .assign := by
      cases h with
      | function hf => exact absurd hf hfunction
      | ident _ => exact hnext _
      | constant _ _ _ _ _ => exact hnext _
    rcases hon with ⟨rfl, htokens⟩ | ⟨-, hne⟩
    · exact ⟨rfl, (Cursor.lexeme_of_tokens htokens).trans hc₂⟩
    · exact absurd hc₂ hne
  rcases hbegins with ⟨-, harrow, -⟩ | ⟨⟨_, _, h, hon⟩, hop⟩ | ⟨name, op, d, c₂, rfl, hbegins, hop⟩
  · unfold Cursor.ahead at harrow
    rw [hc] at harrow
    cases harrow
  · rw [(hhead h hon).2] at hop
    cases hop
  · obtain ⟨_, _, h, hon⟩ := hbegins
    obtain ⟨rfl, hassign⟩ := hhead h hon
    rw [hassign] at hop
    cases hop
    cases h with
    | ident _ => exact ⟨d, rfl⟩
    | constant _ _ hnot _ _ => exact absurd rfl (hnot name)

end Names

end Production

end TraceViewer.Snippet
