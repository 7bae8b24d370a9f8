import TraceViewer.Snippet.Lexer

/-!
# The scanner of substitutions

`skipHole` looks for the brace that closes a substitution without reading tokens.  What it does with
a piece of text depends on the piece and on what surrounds it, and pieces add up: `Scans` says how a
piece changes the surroundings.
-/

namespace TraceViewer.Snippet

open TraceViewer.Text

/-! ## 1. Pieces of text -/

/-- What stands between two places. -/
structure Place.Spans (p q : Place) (cs : List Char) : Prop where
  rest : p.rest = cs ++ q.rest
  offset : q.offset = p.offset + byteLength cs

theorem Place.Spans.eq {p q : Place} {cs : List Char} (h : p.Spans q cs) :
    q = ⟨p.offset + byteLength cs, q.rest⟩ := by
  rw [← h.offset]

theorem Place.Spans.nil (p : Place) : p.Spans p [] := ⟨rfl, rfl⟩

theorem Place.Spans.cons {p q : Place} {c : Char} {rest cs : List Char} (hp : p.rest = c :: rest)
    (h : Place.Spans ⟨p.offset + c.utf8Size, rest⟩ q cs) : p.Spans q (c :: cs) := by
  refine ⟨?_, ?_⟩
  · rw [hp, List.cons_append, ← h.rest]
  · rw [h.offset, byteLength, Nat.add_assoc]

theorem Place.Spans.append {p q r : Place} {cs ds : List Char} (h : p.Spans q cs)
    (g : q.Spans r ds) : p.Spans r (cs ++ ds) := by
  refine ⟨?_, ?_⟩
  · rw [h.rest, g.rest, List.append_assoc]
  · rw [g.offset, h.offset, byteLength_append, Nat.add_assoc]

/-- The piece takes the scanner from one stack of surroundings to another, wherever it stands. -/
def Scans (stack stack' : List Surround) (cs : List Char) : Prop :=
  ∀ start offset rest, skipHole start stack ⟨offset, cs ++ rest⟩ =
    skipHole start stack' ⟨offset + byteLength cs, rest⟩

theorem Scans.nil (stack : List Surround) : Scans stack stack [] := fun _ _ _ => rfl

theorem Scans.append {s s' s'' : List Surround} {cs ds : List Char} (h : Scans s s' cs)
    (g : Scans s' s'' ds) : Scans s s'' (cs ++ ds) := by
  intro start offset rest
  rw [List.append_assoc, h, g, byteLength_append, Nat.add_assoc]

theorem Scans.cons {s s' s'' : List Surround} {c : Char} {cs : List Char} (h : Scans s s' [c])
    (g : Scans s' s'' cs) : Scans s s'' (c :: cs) :=
  h.append g

/-! ## 2. Characters of code -/

variable {braces : Nat} {outer : List Surround}

theorem skipHole_code (start braces : Nat) (outer : List Surround) (offset : Nat) (c : Char)
    (rest : List Char) : skipHole start (.code braces :: outer) ⟨offset, c :: rest⟩ =
      if c == '"' || c == '\'' then
        match readString offset c [] ⟨offset + c.utf8Size, rest⟩ with
        | .ok (_, q) => skipHole start (.code braces :: outer) q
        | .error e => .error e
      else if c == '\x60' then
        skipHole start (.text :: .code braces :: outer) ⟨offset + c.utf8Size, rest⟩
      else if c == '\x7b' then
        skipHole start (.code (braces + 1) :: outer) ⟨offset + c.utf8Size, rest⟩
      else if c == '\x7d' then
        if 1 < braces then
          skipHole start (.code (braces - 1) :: outer) ⟨offset + c.utf8Size, rest⟩
        else if outer.isEmpty then .ok (⟨offset, c :: rest⟩, ⟨offset + c.utf8Size, rest⟩)
        else skipHole start outer ⟨offset + c.utf8Size, rest⟩
      else skipHole start (.code braces :: outer) ⟨offset + c.utf8Size, rest⟩ := by
  rw [skipHole]
  dsimp only
  congr 1
  -- the reader's match remembers the string that was read
  split <;> next heq => rw [heq]

theorem skipHole_text (start : Nat) (outer : List Surround) (offset : Nat) (c : Char)
    (rest : List Char) : skipHole start (.text :: outer) ⟨offset, c :: rest⟩ =
      if c == '\\' then
        skipHole start (.text :: outer) (Place.dropNext ⟨offset + c.utf8Size, rest⟩)
      else if c == '\x60' then skipHole start outer ⟨offset + c.utf8Size, rest⟩
      else if c == '$' && rest.head? == some '\x7b' then
        skipHole start (.code 1 :: .text :: outer) (Place.dropNext ⟨offset + c.utf8Size, rest⟩)
      else skipHole start (.text :: outer) ⟨offset + c.utf8Size, rest⟩ := by
  rw [skipHole]

/-- The characters that the scanner heeds in code. -/
def isMark (c : Char) : Bool :=
  c == '"' || c == '\'' || c == '\x60' || c == '\x7b' || c == '\x7d'

theorem scans_of_not_isMark {cs : List Char} (h : ∀ c ∈ cs, isMark c = false) :
    Scans (.code braces :: outer) (.code braces :: outer) cs := by
  induction cs with
  | nil => exact .nil _
  | cons c cs ih =>
    obtain ⟨hc, hcs⟩ := List.forall_mem_cons.mp h
    refine Scans.cons ?_ (ih hcs)
    intro start offset rest
    simp only [isMark, Bool.or_eq_false_iff] at hc
    obtain ⟨⟨⟨⟨hdouble, hsingle⟩, htick⟩, hopen⟩, hclose⟩ := hc
    rw [List.singleton_append, skipHole_code, hdouble, hsingle, htick, hopen, hclose]
    rfl

theorem scans_of_any {cs : List Char} (h : cs.any isMark = false) :
    Scans (.code braces :: outer) (.code braces :: outer) cs :=
  scans_of_not_isMark fun c hc => Bool.not_eq_true _ |>.mp (List.any_eq_false.mp h c hc)

theorem scans_open : Scans (.code braces :: outer) (.code (braces + 1) :: outer) ['\x7b'] :=
  fun _ _ _ => skipHole_code ..

theorem scans_close :
    Scans (.code (braces + 2) :: outer) (.code (braces + 1) :: outer) ['\x7d'] := by
  intro start offset rest
  rw [List.singleton_append, skipHole_code, if_neg (by decide), if_neg (by decide),
    if_neg (by decide), if_pos (by decide), if_pos (by omega)]
  rfl

/-- The brace that opened this code is closed. -/
theorem scans_leave (hbraces : ¬1 < braces) (houter : outer ≠ []) :
    Scans (.code braces :: outer) outer ['\x7d'] := by
  intro start offset rest
  rw [List.singleton_append, skipHole_code, if_neg (by decide), if_neg (by decide),
    if_neg (by decide), if_pos (by decide), if_neg hbraces, if_neg (by simpa using houter)]
  rfl

theorem scans_tick : Scans (.code braces :: outer) (.text :: .code braces :: outer) ['\x60'] :=
  fun _ _ _ => skipHole_code ..

/-! ## 3. Characters of template text -/

theorem scans_untick : Scans (.text :: outer) outer ['\x60'] := fun _ _ _ => skipHole_text ..

theorem scans_enter : Scans (.text :: outer) (.code 1 :: .text :: outer) ['$', '\x7b'] := by
  intro start offset rest
  refine (skipHole_text ..).trans ?_
  rfl

theorem scans_escaped (c : Char) : Scans (.text :: outer) (.text :: outer) ['\\', c] := by
  intro start offset rest
  refine (skipHole_text ..).trans ?_
  show skipHole start _ ⟨_ + c.utf8Size, rest⟩ = _
  rw [byteLength, byteLength, byteLength, Nat.add_zero, Nat.add_assoc]

theorem scans_textChar {c : Char} (hslash : c ≠ '\\') (htick : c ≠ '\x60') (hdollar : c ≠ '$') :
    Scans (.text :: outer) (.text :: outer) [c] := by
  intro start offset rest
  rw [List.singleton_append, skipHole_text, if_neg (by simpa using hslash),
    if_neg (by simpa using htick), if_neg (by simp [hdollar])]
  rfl

/-- A dollar sign stands for itself unless a brace follows. -/
theorem Scans.dollar {stack : List Surround} {d : Char} {cs : List Char} (hd : d ≠ '\x7b')
    (h : Scans (.text :: outer) stack (d :: cs)) :
    Scans (.text :: outer) stack ('$' :: d :: cs) := by
  intro start offset rest
  rw [List.cons_append, skipHole_text, if_neg (by decide), if_neg (by decide),
    if_neg (by simpa using hd), h, byteLength.eq_2 '$', Nat.add_assoc]

/-! ## 4. Escapes and strings -/

theorem utf8Size_of_isHexDigit {c : Char} (h : isHexDigit c = true) : c.utf8Size = 1 := by
  rw [Char.utf8Size_eq_one_iff]
  unfold isHexDigit hexDigit? at h
  simp only [Char.le_def, UInt32.le_iff_toNat_le] at h ⊢
  have h9 : ('9' : Char).val.toNat = 57 := rfl
  have hf : ('f' : Char).val.toNat = 102 := rfl
  have hF : ('F' : Char).val.toNat = 70 := rfl
  have hmax : (127 : UInt32).toNat = 127 := rfl
  split at h
  · omega
  split at h
  · omega
  split at h
  · omega
  · cases h

/-- The characters after `\u` are digits, or a sign in place of the first. -/
theorem mem_of_codeUnit? {a b c d decoded : Char} (h : codeUnit? a b c d = some decoded) :
    ∀ x ∈ [a, b, c, d], isHexDigit x = true ∨ x = '+' := by
  unfold codeUnit? at h
  dsimp only at h
  grind

theorem byteLength_of_codeUnit? {a b c d decoded : Char} (h : codeUnit? a b c d = some decoded) :
    byteLength [a, b, c, d] = 4 := by
  have hsize : ∀ x ∈ [a, b, c, d], x.utf8Size = 1 := by
    intro x hx
    rcases mem_of_codeUnit? h x hx with hx | rfl
    · exact utf8Size_of_isHexDigit hx
    · rfl
  simp only [List.forall_mem_cons] at hsize
  obtain ⟨ha, hb, hc, hd, -⟩ := hsize
  simp only [byteLength, ha, hb, hc, hd]

theorem scans_of_codeUnit? {a b c d decoded : Char} (h : codeUnit? a b c d = some decoded) :
    Scans (.text :: outer) (.text :: outer) [a, b, c, d] := by
  have hchar : ∀ x ∈ [a, b, c, d], Scans (.text :: outer) (.text :: outer) [x] := by
    intro x hx
    have hx := mem_of_codeUnit? h x hx
    refine scans_textChar ?_ ?_ ?_
    all_goals
      rintro rfl
      revert hx
      decide
  simp only [List.forall_mem_cons] at hchar
  obtain ⟨ha, hb, hc, hd, -⟩ := hchar
  exact .cons ha (.cons hb (.cons hc hd))

/-- What stands behind a backslash: four digits after a "u", or one character. -/
inductive IsEscape : List Char → Prop
  | char {c : Char} (h : c ≠ 'u') : IsEscape [c]
  | unicode {a b c d decoded : Char} (h : codeUnit? a b c d = some decoded) :
    IsEscape ['u', a, b, c, d]

/-- A string behind its opening quote, up to and including the quote that closes it. -/
inductive IsQuoted (quote : Char) : List Char → Prop
  | close : IsQuoted quote [quote]
  | char {c : Char} {cs : List Char} (hquote : c ≠ quote) (hline : c ≠ '\n') (hslash : c ≠ '\\')
    (later : IsQuoted quote cs) : IsQuoted quote (c :: cs)
  | escape {escape cs : List Char} (h : IsEscape escape) (later : IsQuoted quote cs) :
    IsQuoted quote ('\\' :: (escape ++ cs))

theorem readEscape_spans {start : Nat} {fault : SourceFault} {p q : Place} {c : Char}
    (h : readEscape start fault p = .ok (c, q)) :
    ∃ cs, IsEscape cs ∧ p.Spans q cs ∧
      (∀ outer, Scans (.text :: outer) (.text :: outer) ('\\' :: cs)) ∧
      ∀ start fault offset rest, readEscape start fault ⟨offset, cs ++ rest⟩ =
        .ok (c, ⟨offset + byteLength cs, rest⟩) := by
  unfold readEscape at h
  split at h
  case h_1 => cases h
  case h_6 rest hrest =>
    split at h
    · next a b c d rest =>
      split at h
      · next decoded hcode =>
        cases h
        have hlength := byteLength_of_codeUnit? hcode
        refine ⟨['u', a, b, c, d], .unicode hcode, ⟨hrest, ?_⟩,
          fun _ => (scans_escaped 'u').append (scans_of_codeUnit? hcode), ?_⟩
        · rw [byteLength, hlength]
          rfl
        · intro start fault offset rest
          rw [byteLength, hlength]
          simp only [readEscape, List.cons_append, List.nil_append, hcode]
          rfl
      · cases h
    · cases h
  case h_7 d rest hn ht hr h0 hu hrest =>
    cases h
    have hc : c ≠ 'u' := by
      rintro rfl
      exact hu rfl
    refine ⟨[c], .char hc, .cons hrest (.nil _), fun _ => scans_escaped _,
      fun start fault offset rest => ?_⟩
    unfold readEscape
    split <;> grind [byteLength]
  all_goals
    next hrest =>
    cases h
    exact ⟨[_], .char (by decide), .cons hrest (.nil _), fun _ => scans_escaped _,
      fun _ _ _ _ => rfl⟩

theorem readString_cons (start : Nat) (quote : Char) (acc : List Char) (offset : Nat) (c : Char)
    (rest : List Char) : readString start quote acc ⟨offset, c :: rest⟩ =
      if c == quote then .ok (acc.reverse, ⟨offset + c.utf8Size, rest⟩)
      else if c == '\n' then .error (.badSource start .unterminatedString)
      else if c == '\\' then
        match readEscape start .unterminatedString ⟨offset + c.utf8Size, rest⟩ with
        | .ok (decoded, q) => readString start quote (decoded :: acc) q
        | .error e => .error e
      else readString start quote (c :: acc) ⟨offset + c.utf8Size, rest⟩ := by
  rw [readString]
  dsimp only
  congr 3
  split <;> next heq => rw [heq]

/-- A string is read alike wherever it stands. -/
theorem readString_spans {start : Nat} {quote : Char} {acc s : List Char} {p q : Place}
    (h : readString start quote acc p = .ok (s, q)) :
    ∃ cs value, IsQuoted quote cs ∧ p.Spans q cs ∧ s = acc.reverse ++ value ∧
      ∀ start acc offset rest, readString start quote acc ⟨offset, cs ++ rest⟩ =
        .ok (acc.reverse ++ value, ⟨offset + byteLength cs, rest⟩) := by
  fun_induction readString start quote acc p with
  | case1 => cases h
  | case2 acc p c rest hrest after hquote =>
    obtain ⟨rfl, rfl⟩ := Prod.mk.inj (Except.ok.inj h)
    obtain rfl := eq_of_beq hquote
    refine ⟨[c], [], .close, .cons hrest (.nil _), (List.append_nil _).symm,
      fun start acc offset rest => ?_⟩
    rw [List.singleton_append, readString_cons, if_pos hquote, List.append_nil]
    rfl
  | case3 => cases h
  | case4 acc p c rest hrest after hquote hline hslash decoded r hesc _ ih =>
    obtain ⟨cs, hform, hcs, -, hread⟩ := readEscape_spans hesc
    obtain ⟨ds, value, hquoted, hds, rfl, hreads⟩ := ih h
    obtain rfl := eq_of_beq hslash
    refine ⟨'\\' :: (cs ++ ds), decoded :: value, .escape hform hquoted,
      .cons hrest (hcs.append hds), by rw [List.reverse_cons, List.append_assoc]; rfl,
      fun start acc offset rest => ?_⟩
    rw [List.cons_append, readString_cons, if_neg hquote, if_neg hline, if_pos hslash,
      List.append_assoc, hread]
    refine (hreads start (decoded :: acc) _ rest).trans ?_
    rw [List.reverse_cons, List.append_assoc, byteLength, byteLength_append, Nat.add_assoc,
      Nat.add_assoc]
    rfl
  | case5 => cases h
  | case6 acc p c rest hrest after hquote hline hslash _ ih =>
    obtain ⟨cs, value, hquoted, hcs, rfl, hread⟩ := ih h
    have hquoted : IsQuoted quote (c :: cs) :=
      .char (by simpa using hquote) (by simpa using hline) (by simpa using hslash) hquoted
    refine ⟨c :: cs, c :: value, hquoted, .cons hrest hcs,
      by rw [List.reverse_cons, List.append_assoc]; rfl, fun start acc offset rest => ?_⟩
    rw [List.cons_append, readString_cons, if_neg hquote, if_neg hline, if_neg hslash, hread,
      List.reverse_cons, List.append_assoc, byteLength, Nat.add_assoc]
    rfl

/-- The scanner goes over a string as the lexer does. -/
theorem scans_string {start : Nat} {quote : Char} {acc s : List Char} {p q : Place}
    (hquote : quote == '"' || quote == '\'') (h : readString start quote acc p = .ok (s, q)) :
    ∃ cs, p.Spans q cs ∧
      ∀ braces outer, Scans (.code braces :: outer) (.code braces :: outer) (quote :: cs) := by
  obtain ⟨cs, _, -, hcs, -, hread⟩ := readString_spans h
  refine ⟨cs, hcs, fun braces outer start offset rest => ?_⟩
  rw [List.cons_append, skipHole_code, if_pos hquote, hread, byteLength, Nat.add_assoc]

/-! ## 5. Whole substitutions -/

/-- The scanner goes over `cs` to the brace that closes the substitution.  More braces may be open
around it, and more may surround it: it leaves them as they are. -/
structure Closes (inside : List Surround) (n : Nat) (p close q : Place) (cs : List Char) :
    Prop where
  spans : p.Spans close cs
  brace : close.Spans q ['\x7d']
  begins : cs = [] → inside = []
  scans : ∀ braces outer, Scans (inside ++ .code (n + 1 + braces) :: outer)
    (.code (1 + braces) :: outer) cs

/-- A piece takes the scanner from one stack to another, and no less so where more braces are open
in the code of the substitution and more surrounds it. -/
def ScansInside (stack stack' : List Surround) (cs : List Char) : Prop :=
  ∀ inside n, inside ++ [.code (n + 1)] = stack →
    ∃ inside' n', inside' ++ [.code (n' + 1)] = stack' ∧ ∀ braces outer,
      Scans (inside ++ .code (n + 1 + braces) :: outer)
        (inside' ++ .code (n' + 1 + braces) :: outer) cs

namespace ScansInside

variable {stack stack' inside : List Surround} {n : Nat} {p p' close q : Place} {cs : List Char}

/-- Strings, marks of templates and characters without a meaning leave the code as it is. -/
theorem of_code (new : List Surround) (h : ∀ braces outer,
    Scans (.code braces :: outer) (new ++ .code braces :: outer) cs) :
    ScansInside (.code braces :: outer) (new ++ .code braces :: outer) cs := by
  intro inside n hstack
  refine ⟨new ++ inside, n, by rw [List.append_assoc, hstack], fun b o => ?_⟩
  rw [List.append_assoc]
  cases inside with
  | nil => exact h _ _
  | cons s inside =>
    cases hstack
    exact h _ _

theorem of_text (new : List Surround) (h : ∀ outer, Scans (.text :: outer) (new ++ outer) cs) :
    ScansInside (.text :: outer) (new ++ outer) cs := by
  intro inside n hstack
  cases inside with
  | nil => cases hstack
  | cons s inside =>
    cases hstack
    refine ⟨new ++ inside, n, List.append_assoc .., fun b o => ?_⟩
    rw [List.append_assoc]
    exact h _

theorem opened : ScansInside (.code braces :: outer) (.code (braces + 1) :: outer) ['\x7b'] := by
  intro inside n hstack
  cases inside with
  | nil =>
    cases hstack
    refine ⟨[], n + 1, rfl, fun b o => ?_⟩
    rw [Nat.add_right_comm (n + 1) 1 b]
    exact scans_open
  | cons s inside =>
    cases hstack
    exact ⟨.code (braces + 1) :: inside, n, rfl, fun b o => scans_open⟩

/-- A brace is closed that is not the one of the substitution. -/
theorem closed :
    ScansInside (.code (braces + 2) :: outer) (.code (braces + 1) :: outer) ['\x7d'] := by
  intro inside n hstack
  cases inside with
  | nil =>
    cases hstack
    refine ⟨[], braces, rfl, fun b o => ?_⟩
    rw [List.nil_append, Nat.add_right_comm (braces + 1) 1 b, Nat.add_right_comm braces 1 b]
    exact scans_close
  | cons s inside =>
    cases hstack
    exact ⟨.code (braces + 1) :: inside, n, rfl, fun b o => scans_close⟩

/-- A substitution inside is closed. -/
theorem left (hbraces : ¬1 < braces) (houter : outer ≠ []) :
    ScansInside (.code braces :: outer) outer ['\x7d'] := by
  intro inside n hstack
  cases inside with
  | nil =>
    cases hstack
    exact absurd rfl houter
  | cons s inside =>
    cases hstack
    exact ⟨inside, n, rfl, fun b o => scans_leave hbraces
      (List.append_ne_nil_of_right_ne_nil inside (List.cons_ne_nil _ _))⟩

/-- A piece may stand in front of the rest of a substitution. -/
theorem closes {c : Char} (h : ScansInside stack stack' (c :: cs))
    (hstack : inside ++ [.code (n + 1)] = stack) (hspans : p.Spans p' (c :: cs))
    (hrest : ∀ {inside n}, inside ++ [.code (n + 1)] = stack' →
      ∃ ds, Closes inside n p' close q ds) : ∃ ds, Closes inside n p close q ds := by
  obtain ⟨inside', n', hstack', hscans⟩ := h inside n hstack
  obtain ⟨ds, hds⟩ := hrest hstack'
  exact ⟨c :: cs ++ ds, hspans.append hds.spans, hds.brace,
    fun hnil => absurd hnil (List.cons_ne_nil _ _), fun b o => (hscans b o).append (hds.scans b o)⟩

end ScansInside

/-- In the text of a template what follows a dollar sign decides, so a character is looked at
together with the next one. -/
theorem Closes.textChar {inside outer : List Surround} {n : Nat} {p close q : Place} {c : Char}
    {rest cs : List Char} (hstack : inside ++ [.code (n + 1)] = .text :: outer)
    (hrest : p.rest = c :: rest) (hslash : c ≠ '\\') (htick : c ≠ '\x60')
    (hdollar : ¬(c == '$' && rest.head? == some '\x7b') = true)
    (h : Closes inside n ⟨p.offset + c.utf8Size, rest⟩ close q cs) :
    Closes inside n p close q (c :: cs) := by
  cases inside with
  | nil => cases hstack
  | cons s inside =>
    cases hstack
    cases cs with
    | nil => cases h.begins rfl
    | cons d cs =>
      refine ⟨.cons hrest h.spans, h.brace, fun hnil => absurd hnil (List.cons_ne_nil _ _),
        fun b o => ?_⟩
      by_cases hc : c = '$'
      · subst hc
        refine Scans.dollar ?_ (h.scans b o)
        rintro rfl
        have hhead : rest.head? = some '\x7b' := by
          rw [show rest = _ from h.spans.rest]
          rfl
        rw [hhead] at hdollar
        exact hdollar rfl
      · exact Scans.cons (scans_textChar hslash htick hc) (h.scans b o)

theorem skipHole_nil (start : Nat) (stack : List Surround) (offset : Nat) :
    skipHole start stack ⟨offset, []⟩ = .error (.badSource start .unterminatedTemplate) := by
  rw [skipHole]

/-- The brace that is found closes the substitution, and everything in front of it is inside. -/
theorem skipHole_closes {start : Nat} {inside : List Surround} {n : Nat} {p close q : Place}
    (h : skipHole start (inside ++ [.code (n + 1)]) p = .ok (close, q)) :
    ∃ cs, Closes inside n p close q cs := by
  generalize hstack : inside ++ [.code (n + 1)] = stack at h
  fun_induction skipHole start stack p generalizing inside n with
  | case1 => cases h
  | case2 => exact absurd hstack (List.append_ne_nil_of_right_ne_nil inside (List.cons_ne_nil _ _))
  | case3 p c rest hrest after _ _ braces outer hquote _ r hstr _ =>
    rename_i ih
    -- a string
    obtain ⟨ds, hds, hscans⟩ := scans_string hquote hstr
    exact (ScansInside.of_code [] hscans).closes hstack (.cons hrest hds) fun h' => ih h' h
  | case4 => cases h
  | case5 p c rest hrest after _ _ braces outer _ htick =>
    rename_i ih
    -- a template inside
    obtain rfl := eq_of_beq htick
    exact (ScansInside.of_code [.text] fun _ _ => scans_tick).closes hstack
      (.cons hrest (.nil _)) fun h' => ih h' h
  | case6 p c rest hrest after _ _ braces outer _ _ hopen =>
    rename_i ih
    obtain rfl := eq_of_beq hopen
    exact ScansInside.opened.closes hstack (.cons hrest (.nil _)) fun h' => ih h' h
  | case7 p c rest hrest after _ _ braces outer _ _ _ hclose hbraces =>
    rename_i ih
    obtain rfl := eq_of_beq hclose
    obtain ⟨k, rfl⟩ : ∃ k, braces = k + 2 := ⟨braces - 2, by omega⟩
    exact ScansInside.closed.closes hstack (.cons hrest (.nil _)) fun h' => ih h' h
  | case8 p c rest hrest after _ _ braces outer _ _ _ hclose hbraces =>
    rename_i houter
    -- the substitution is closed
    obtain rfl := eq_of_beq hclose
    obtain ⟨rfl, rfl⟩ := Prod.mk.inj (Except.ok.inj h)
    obtain rfl := List.isEmpty_iff.mp houter
    cases inside with
    | nil =>
      cases hstack
      obtain rfl : n = 0 := by omega
      exact ⟨[], .nil _, .cons hrest (.nil _), fun _ => rfl, fun b o => .nil _⟩
    | cons s inside => cases inside <;> cases hstack
  | case9 p c rest hrest after _ _ braces outer _ _ _ hclose hbraces houter =>
    rename_i ih
    obtain rfl := eq_of_beq hclose
    exact (ScansInside.left hbraces (by simpa using houter)).closes hstack
      (.cons hrest (.nil _)) fun h' => ih h' h
  | case10 p c rest hrest after _ _ braces outer hquote htick hopen hclose =>
    rename_i ih
    have hmark : ∀ d ∈ [c], isMark d = false := by
      intro d hd
      rw [List.mem_singleton.mp hd]
      unfold isMark
      grind
    exact (ScansInside.of_code [] fun _ _ => scans_of_not_isMark hmark).closes hstack
      (.cons hrest (.nil _)) fun h' => ih h' h
  | case11 p c rest hrest after _ _ outer hslash =>
    rename_i ih
    -- an escape in the text of a template
    obtain rfl := eq_of_beq hslash
    cases rest with
    | nil => cases (skipHole_nil ..).symm.trans h
    | cons d rest =>
      exact (ScansInside.of_text [.text] fun _ => scans_escaped d).closes hstack
        (.cons hrest (.cons rfl (.nil _))) fun h' => ih h' h
  | case12 p c rest hrest after _ _ outer hslash htick =>
    rename_i ih
    -- a template inside ends
    obtain rfl := eq_of_beq htick
    exact (ScansInside.of_text [] fun _ => scans_untick).closes hstack
      (.cons hrest (.nil _)) fun h' => ih h' h
  | case13 p c rest hrest after _ _ outer hslash htick hdollar =>
    rename_i ih
    -- a substitution of a template inside
    obtain ⟨hc, hhead⟩ := Bool.and_eq_true .. |>.mp hdollar
    obtain rfl := eq_of_beq hc
    obtain ⟨rest, rfl⟩ := List.head?_eq_some_iff.mp (eq_of_beq hhead)
    exact (ScansInside.of_text [.code 1, .text] fun _ => scans_enter).closes hstack
      (.cons hrest (.cons rfl (.nil _))) fun h' => ih h' h
  | case14 p c rest hrest after _ _ outer hslash htick hdollar =>
    rename_i ih
    obtain ⟨cs, hcs⟩ := ih hstack h
    exact ⟨c :: cs, hcs.textChar hstack hrest (by simpa using hslash) (by simpa using htick)
      hdollar⟩

theorem skipHole_closes_one {start : Nat} {p close q : Place}
    (h : skipHole start [.code 1] p = .ok (close, q)) : ∃ cs, Closes [] 0 p close q cs :=
  @skipHole_closes start [] 0 p close q h

end TraceViewer.Snippet
