import TraceViewer.Proofs.Snippet.Identifiers
import TraceViewer.Proofs.Snippet.NumberTexts

/-!
# Texts of tokens

What the readers of tokens take for a token, and that they take the same text for the same token
elsewhere: at another offset, and before a rest that differs by a space only.  A reader looks beyond
its token, so this needs that a space begins nothing that it looks for.
-/

namespace TraceViewer.Snippet

open TraceViewer.Text

/-! ## 1. One more space -/

/-- The second text is the first with a space put in somewhere, or the first itself. -/
inductive Widened : List Char → List Char → Prop
  | same (cs : List Char) : Widened cs cs
  | space (cs : List Char) : Widened cs (' ' :: cs)
  | cons (c : Char) {cs ds : List Char} (later : Widened cs ds) : Widened (c :: cs) (c :: ds)

variable {cs ds xs : List Char} {f : Char → Bool}

theorem Widened.append (xs : List Char) (h : Widened cs ds) : Widened (xs ++ cs) (xs ++ ds) := by
  induction xs with
  | nil => exact h
  | cons x xs ih => exact ih.cons x

/-- What begins the wider text without a space begins the other one too. -/
theorem Widened.of_append (hxs : ' ' ∉ xs) (h : Widened cs (xs ++ ds)) :
    ∃ rest, cs = xs ++ rest ∧ Widened rest ds := by
  induction xs generalizing cs with
  | nil => exact ⟨cs, rfl, h⟩
  | cons x xs ih =>
    rw [List.mem_cons, not_or] at hxs
    cases h with
    | same => exact ⟨ds, rfl, .same ds⟩
    | space => exact absurd rfl hxs.1
    | cons _ later =>
      obtain ⟨rest, rfl, hrest⟩ := ih hxs.2 later
      exact ⟨rest, rfl, hrest⟩

/-- A run ends before the wider text if it ended before the other one. -/
theorem Widened.stops (h : Widened cs ds) (hf : f ' ' = false)
    (hcs : ∀ c ∈ cs.head?, f c = false) : ∀ c ∈ ds.head?, f c = false := by
  cases h with
  | same => exact hcs
  | space =>
    rintro c ⟨⟩
    exact hf
  | cons c later => exact hcs

theorem Widened.any_head? (h : Widened cs ds) (hf : f ' ' = false)
    (hds : ds.head?.any f = true) : cs.head?.any f = true := by
  cases h with
  | same => exact hds
  | space =>
    rw [List.head?_cons, Option.any_some, hf] at hds
    cases hds
  | cons c later => exact hds

/-! ## 2. What is cut off -/

/-- What is cut off a text is cut off once more before a wider rest. -/
def IsSteady (cut : List Char → List Char × List Char) : Prop :=
  ∀ cs ds, Widened (cut cs).2 ds → cut ((cut cs).1 ++ ds) = ((cut cs).1, ds)

def spanOf (f : Char → Bool) (cs : List Char) : List Char × List Char :=
  (cs.takeWhile f, cs.dropWhile f)

theorem head?_dropWhile (f : Char → Bool) (cs : List Char) :
    ∀ c ∈ (cs.dropWhile f).head?, f c = false := by
  intro c hc
  have hnot := List.head?_dropWhile_not f cs
  rw [hc] at hnot
  exact hnot

theorem isSteady_spanOf (hf : f ' ' = false) : IsSteady (spanOf f) := by
  intro cs ds h
  obtain ⟨htake, hdrop⟩ :=
    takeWhile_stop (fun c hc => List.mem_takeWhile_imp hc) (h.stops hf (head?_dropWhile f cs))
  exact Prod.ext htake hdrop

/-- One cut after the other. -/
def cutTwice (cut cut' : List Char → List Char × List Char) (cs : List Char) :
    List Char × List Char :=
  ((cut cs).1 ++ (cut' (cut cs).2).1, (cut' (cut cs).2).2)

theorem IsSteady.cutTwice {cut cut' : List Char → List Char × List Char} (h : IsSteady cut)
    (h' : IsSteady cut') (hcut' : ∀ cs, (cut' cs).1 ++ (cut' cs).2 = cs) :
    IsSteady (cutTwice cut cut') := by
  intro cs ds hds
  have hds : Widened (cut' (cut cs).2).2 ds := hds
  have hlater := h' (cut cs).2 ds hds
  have hrest : Widened (cut cs).2 ((cut' (cut cs).2).1 ++ ds) := by
    have happend := hds.append (cut' (cut cs).2).1
    rwa [hcut'] at happend
  have hfirst := h cs _ hrest
  unfold Snippet.cutTwice
  dsimp only
  rw [List.append_assoc, hfirst]
  dsimp only
  rw [hlater]

/-! ## 3. Numbers -/

/-- The point of a decimal literal and the digits behind it. -/
def placesOf : List Char → List Char × List Char
  | '.' :: rest => ('.' :: rest.takeWhile Number.isDigit, rest.dropWhile Number.isDigit)
  | rest => ([], rest)

theorem placesOf_append (cs : List Char) : (placesOf cs).1 ++ (placesOf cs).2 = cs := by
  unfold placesOf
  split
  · rw [List.cons_append, List.takeWhile_append_dropWhile]
  · rfl

theorem placesOf_of_ne (h : ∀ rest, cs ≠ '.' :: rest) : placesOf cs = ([], cs) := by
  unfold placesOf
  split
  · exact absurd rfl (h _)
  · rfl

theorem isSteady_placesOf : IsSteady placesOf := by
  intro cs ds h
  by_cases hpoint : ∃ rest, cs = '.' :: rest
  · obtain ⟨rest, rfl⟩ := hpoint
    have hdigits := isSteady_spanOf (f := Number.isDigit) rfl rest ds h
    obtain ⟨htake, hdrop⟩ := Prod.mk.inj hdigits
    exact Prod.ext (congrArg ('.' :: ·) htake) hdrop
  · have hcs : ∀ rest, cs ≠ '.' :: rest := fun rest hrest => hpoint ⟨rest, hrest⟩
    rw [placesOf_of_ne hcs] at h ⊢
    have hds : Widened cs ds := h
    refine placesOf_of_ne fun rest hrest => ?_
    have hrest : ds = ['.'] ++ rest := hrest
    rw [hrest] at hds
    obtain ⟨rest', hrest', -⟩ := hds.of_append (by decide)
    exact hcs rest' hrest'

/-- What is cut off as an exponent is one, or nothing. -/
theorem exponentOf_cases (cs : List Char) : exponentOf cs = ([], cs) ∨
    ∃ (x : Exponent) (rest : List Char), exponentOf cs = (x.chars, rest) ∧
      cs = x.chars ++ rest ∧ ∀ c ∈ rest.head?, Number.isDigit c = false := by
  have hsigned (mark : Char) (sign : Sign) (digits : List Char) (cut : List Char × List Char)
      (hcut : cut = if (mark == 'e' || mark == 'E') && !(digits.takeWhile Number.isDigit).isEmpty
        then (mark :: sign.chars ++ digits.takeWhile Number.isDigit,
          digits.dropWhile Number.isDigit)
        else ([], mark :: (sign.chars ++ digits))) :
      cut = ([], mark :: (sign.chars ++ digits)) ∨ ∃ (x : Exponent) (rest : List Char),
        cut = (x.chars, rest) ∧ mark :: (sign.chars ++ digits) = x.chars ++ rest ∧
          ∀ c ∈ rest.head?, Number.isDigit c = false := by
    split at hcut
    · next h =>
      obtain ⟨hmark, hdigits⟩ := Bool.and_eq_true .. |>.mp h
      rw [Bool.or_eq_true, beq_iff_eq, beq_iff_eq] at hmark
      rw [Bool.not_eq_true', List.isEmpty_eq_false_iff] at hdigits
      let x : Exponent := ⟨mark, sign, digits.takeWhile Number.isDigit, hmark,
        fun c hc => List.mem_takeWhile_imp hc, hdigits⟩
      refine .inr ⟨x, digits.dropWhile Number.isDigit, hcut, ?_, head?_dropWhile _ _⟩
      show _ = mark :: (sign.chars ++ digits.takeWhile Number.isDigit) ++ _
      rw [List.cons_append, List.append_assoc, List.takeWhile_append_dropWhile]
    · exact .inl hcut
  unfold exponentOf
  split
  · next mark rest =>
    split
    next sign digits heq =>
    split at heq
    · cases heq
      exact hsigned mark .plus _ _ rfl
    · cases heq
      exact hsigned mark .minus _ _ rfl
    · cases heq
      exact hsigned mark .absent _ _ rfl
  · exact .inl rfl

theorem space_not_mem_exponent (x : Exponent) : ' ' ∉ x.chars := by
  intro h
  rcases List.mem_cons.mp h with hmark | h
  · rcases x.isMark with h | h <;> rw [h] at hmark <;> cases hmark
  · rcases List.mem_append.mp h with h | h
    · revert h
      cases x.sign <;> decide
    · cases x.isDigit ' ' h

/-- More digits may follow, but some are cut off. -/
theorem exponentOf_ne_nil (x : Exponent) (rest : List Char) :
    (exponentOf (x.chars ++ rest)).1 ≠ [] := by
  have hne : (x.digits ++ rest).takeWhile Number.isDigit ≠ [] := by
    rw [List.takeWhile_append_of_pos x.isDigit]
    exact List.append_ne_nil_of_left_ne_nil x.ne_nil _
  let y : Exponent := ⟨x.mark, x.sign, (x.digits ++ rest).takeWhile Number.isDigit, x.isMark,
    fun c hc => List.mem_takeWhile_imp hc, hne⟩
  have hchars : x.chars ++ rest = y.chars ++ (x.digits ++ rest).dropWhile Number.isDigit := by
    show x.mark :: (x.sign.chars ++ x.digits) ++ rest = x.mark :: (x.sign.chars ++ _) ++ _
    rw [List.cons_append, List.cons_append, List.append_assoc, List.append_assoc,
      List.takeWhile_append_dropWhile]
  rw [hchars, exponentOf_chars y (head?_dropWhile _ _)]
  exact List.cons_ne_nil _ _

theorem isSteady_exponentOf : IsSteady exponentOf := by
  intro cs ds h
  rcases exponentOf_cases cs with hnone | ⟨x, rest, hsome, -, hstop⟩
  · rw [hnone] at h ⊢
    rcases exponentOf_cases ds with hds | ⟨x, rest, -, rfl, -⟩
    · exact hds
    · -- an exponent in the wider text would be one in the other
      obtain ⟨rest', rfl, -⟩ := h.of_append (space_not_mem_exponent x)
      exact absurd (congrArg Prod.fst hnone) (exponentOf_ne_nil x rest')
  · rw [hsome] at h ⊢
    exact exponentOf_chars x (h.stops rfl hstop)

theorem decimalOf_eq :
    decimalOf = cutTwice (cutTwice (spanOf Number.isDigit) placesOf) exponentOf := by
  funext cs
  unfold decimalOf cutTwice spanOf
  dsimp only
  generalize cs.dropWhile Number.isDigit = rest
  by_cases hpoint : ∃ places, rest = '.' :: places
  · obtain ⟨places, rfl⟩ := hpoint
    rfl
  · rw [placesOf_of_ne fun places hplaces => hpoint ⟨places, hplaces⟩]
    split
    · exact absurd ⟨_, rfl⟩ hpoint
    · rfl

theorem isSteady_decimalOf : IsSteady decimalOf := by
  rw [decimalOf_eq]
  exact ((isSteady_spanOf rfl).cutTwice isSteady_placesOf placesOf_append).cutTwice
    isSteady_exponentOf fun cs => (isCut_exponentOf cs).1

/-- A text that begins like a hexadecimal literal. -/
def IsMarked (cs : List Char) : Prop :=
  ∃ mark rest, (mark = 'x' ∨ mark = 'X') ∧ cs = '0' :: mark :: rest

theorem Widened.not_isMarked (h : Widened cs ds) (hcs : ¬IsMarked cs) : ¬IsMarked ds := by
  rintro ⟨mark, rest, hmark, rfl⟩
  have hspace : ' ' ∉ ['0', mark] := by rcases hmark with rfl | rfl <;> decide
  obtain ⟨rest', rfl, -⟩ := Widened.of_append hspace h
  exact hcs ⟨mark, rest', hmark, rfl⟩

theorem readNumber_unmarked (h : ¬IsMarked cs) (offset : Nat) : readNumber ⟨offset, cs⟩ =
    match Number.decimal? (decimalOf cs).1 with
    | some x =>
      .ok (.number x, ⟨offset + byteLength (decimalOf cs).1, (decimalOf cs).2⟩)
    | none => .error (.badSource offset .badNumberLiteral) := by
  unfold readNumber
  dsimp only
  split
  · next mark rest =>
    split
    · next hmark =>
      rw [Bool.or_eq_true, beq_iff_eq, beq_iff_eq] at hmark
      exact absurd ⟨mark, rest, hmark, rfl⟩ h
    · rfl
  · rfl

theorem readNumber_marked {mark : Char} (hmark : mark = 'x' ∨ mark = 'X') (offset : Nat)
    (rest : List Char) : readNumber ⟨offset, '0' :: mark :: rest⟩ =
      let cut := spanOf isHexDigit rest
      if cut.1.isEmpty || maxHexLiteral < hexOf cut.1 then
        .error (.badSource offset .badHexLiteral)
      else .ok (.number (Number.ofNat (hexOf cut.1)),
        ⟨offset + byteLength ('0' :: mark :: cut.1), cut.2⟩) := by
  unfold readNumber hexValue
  refine (if_pos (beq_or_of_eq hmark)).trans ?_
  dsimp only
  rw [String.toList_ofList]
  rfl

/-- What starts with a digit or a point is read as a literal without a sign. -/
theorem exists_decimal_of_head {c : Char} (hc : Number.isDigit c = true ∨ c = '.')
    {x : Float} (hhead : cs.head? = some c) (h : Number.decimal? cs = some x) :
    ∃ d : Decimal, cs = d.chars ∧ x = d.value := by
  obtain ⟨sign, d, rfl⟩ := isSome_decimal?_iff.mp (by rw [h]; rfl)
  cases sign with
  | absent => exact ⟨d, rfl, Option.some.inj (h.symm.trans (decimal?_chars d))⟩
  | plus | minus =>
    cases hhead
    rcases hc with hc | hc <;> cases hc

/-- The numeral stands between two places, and is read again before a wider rest. -/
structure Numeral.StandsBetween (n : Numeral) (p q : Place) : Prop where
  spans : p.Spans q n.chars
  again : ∀ offset ds, Widened q.rest ds → readNumber ⟨offset, n.chars ++ ds⟩ =
    .ok (.number n.value, ⟨offset + byteLength n.chars, ds⟩)

section Numbers

variable {start : Nat} {q : Place} {l : Lexeme} {c mark : Char} {rest : List Char}

theorem readNumber_takes_hex (hmark : mark = 'x' ∨ mark = 'X')
    (h : readNumber ⟨start, '0' :: mark :: rest⟩ = .ok (l, q)) :
    ∃ n : Numeral, l = .number n.value ∧ n.StandsBetween ⟨start, '0' :: mark :: rest⟩ q := by
  rw [readNumber_marked hmark] at h
  dsimp only at h
  split at h
  · cases h
  · next hok =>
    cases h
    rw [Bool.not_eq_true, Bool.or_eq_false_iff, List.isEmpty_eq_false_iff,
      decide_eq_false_iff_not, not_lt] at hok
    let numeral : HexNumeral := ⟨mark, (spanOf isHexDigit rest).1, hmark,
      fun c hc => List.mem_takeWhile_imp hc, hok.1, hok.2⟩
    refine ⟨.hex numeral, rfl, ⟨?_, rfl⟩, fun offset ds hds => ?_⟩
    · show _ = '0' :: mark :: rest.takeWhile isHexDigit ++ rest.dropWhile isHexDigit
      rw [List.cons_append, List.cons_append, List.takeWhile_append_dropWhile]
    · have hcut := isSteady_spanOf (f := isHexDigit) (by decide) rest ds hds
      show readNumber ⟨offset, '0' :: mark :: ((spanOf isHexDigit rest).1 ++ ds)⟩ = _
      rw [readNumber_marked hmark, hcut]
      refine if_neg ?_
      rw [Bool.not_eq_true, Bool.or_eq_false_iff, List.isEmpty_eq_false_iff,
        decide_eq_false_iff_not, not_lt]
      exact hok

theorem head?_decimalOf {x : Float} (h : Number.decimal? (decimalOf (c :: rest)).1 = some x) :
    (decimalOf (c :: rest)).1.head? = some c := by
  have happend := (isCut_decimalOf (c :: rest)).1
  cases htaken : (decimalOf (c :: rest)).1 with
  | nil =>
    rw [htaken] at h
    cases h
  | cons d taken =>
    rw [htaken] at happend
    rw [(List.cons.inj happend).1]
    rfl

theorem readNumber_takes_decimal (hc : Number.isDigit c = true ∨ c = '.')
    (hmarked : ¬IsMarked (c :: rest)) (h : readNumber ⟨start, c :: rest⟩ = .ok (l, q)) :
    ∃ n : Numeral, l = .number n.value ∧ n.StandsBetween ⟨start, c :: rest⟩ q := by
  rw [readNumber_unmarked hmarked] at h
  split at h
  · next x hx =>
    cases h
    have happend := (isCut_decimalOf (c :: rest)).1
    obtain ⟨d, hd, rfl⟩ := exists_decimal_of_head hc (head?_decimalOf hx) hx
    refine ⟨.decimal d, rfl, ⟨?_, ?_⟩, fun offset ds hds => ?_⟩
    · show _ = d.chars ++ _
      rw [← hd, happend]
    · show _ = start + byteLength d.chars
      rw [← hd]
    · show readNumber ⟨offset, d.chars ++ ds⟩ = .ok (.number d.value, ⟨_ + byteLength d.chars, _⟩)
      have hwide := hds.append (decimalOf (c :: rest)).1
      rw [happend] at hwide
      have hcut := isSteady_decimalOf (c :: rest) ds hds
      rw [hd] at hwide hcut
      rw [readNumber_unmarked (hwide.not_isMarked hmarked), hcut]
      dsimp only
      rw [decimal?_chars]
  · cases h

/-- A number is a literal, and the literal is read as this number before a wider rest. -/
theorem readNumber_takes {p : Place} (hp : p.rest = c :: rest)
    (hc : Number.isDigit c = true ∨ c = '.') (h : readNumber p = .ok (l, q)) :
    ∃ n : Numeral, l = .number n.value ∧ n.StandsBetween p q := by
  obtain ⟨start, cs⟩ := p
  dsimp only at hp
  subst hp
  by_cases hmarked : IsMarked (c :: rest)
  · obtain ⟨mark, rest', hmark, heq⟩ := hmarked
    obtain ⟨rfl, rfl⟩ := List.cons.inj heq
    exact readNumber_takes_hex hmark h
  · exact readNumber_takes_decimal hc hmarked h

end Numbers

/-! ## 4. Templates -/

/-- The text of a template behind its opening mark or behind a substitution, at an offset, and its
substitutions. -/
inductive IsTemplateText : Nat → List Char → List Hole → Prop
  | close (offset : Nat) : IsTemplateText offset ['\x60'] []
  | char {offset : Nat} {c : Char} {cs : List Char} {holes : List Hole} (htick : c ≠ '\x60')
    (hslash : c ≠ '\\') (hdollar : c = '$' → cs.head? ≠ some '\x7b')
    (later : IsTemplateText (offset + c.utf8Size) cs holes) : IsTemplateText offset (c :: cs) holes
  | escape {offset : Nat} {escape cs : List Char} {holes : List Hole} (h : IsEscape escape)
    (later : IsTemplateText (offset + 1 + byteLength escape) cs holes) :
    IsTemplateText offset ('\\' :: (escape ++ cs)) holes
  | hole {offset : Nat} {body cs : List Char} {holes : List Hole} (h : Passes body)
    (later : IsTemplateText (offset + 2 + byteLength body + 1) cs holes) :
    IsTemplateText offset ('$' :: '\x7b' :: (body ++ '\x7d' :: cs))
      (⟨offset + 2, .ofList body⟩ :: holes)

theorem IsTemplateText.ne_nil {offset : Nat} {holes : List Hole}
    (h : IsTemplateText offset cs holes) : cs ≠ [] := by
  cases h <;> exact List.cons_ne_nil _ _

def Hole.moved (n : Nat) (h : Hole) : Hole := ⟨h.offset + n, h.source⟩

variable {start : Nat} {parts : List String} {holes : List Hole} {acc : List Char} {p q : Place}
  {l : Lexeme}

/-- Between two places stands the rest of a template, a text of its own kind, which is read as this
rest wherever it stands; its substitutions move with it. -/
def TakesTemplate (parts : List String) (holes : List Hole) (acc : List Char) (p q : Place)
    (l : Lexeme) : Prop :=
  ∃ cs parts' holes', p.Spans q cs ∧ IsTemplateText p.offset cs holes' ∧
    parts'.length = holes'.length + 1 ∧
    l = .template (parts.reverse ++ parts') (holes.reverse ++ holes') ∧
    ∀ n start holes ds, readTemplate start parts holes acc ⟨p.offset + n, cs ++ ds⟩ =
      .ok (.template (parts.reverse ++ parts') (holes.reverse ++ holes'.map (Hole.moved n)),
        ⟨q.offset + n, ds⟩)

section Templates

variable {c : Char} {rest : List Char}

theorem takesTemplate_close (hrest : p.rest = '\x60' :: rest) :
    TakesTemplate parts holes acc p ⟨p.offset + 1, rest⟩
      (.template (String.ofList acc.reverse :: parts).reverse holes.reverse) := by
  refine ⟨['\x60'], [.ofList acc.reverse], [], .cons hrest (.nil _), .close _, rfl, ?_, ?_⟩
  · rw [List.reverse_cons, List.append_nil]
  · intro n start holes ds
    rw [List.singleton_append, readTemplate_tick, List.reverse_cons, List.map_nil,
      List.append_nil, Nat.add_right_comm]

theorem takesTemplate_hole {close r : Place} {inside : List Char}
    (hrest : p.rest = '$' :: '\x7b' :: rest)
    (hcloses : Closes [] 0 ⟨p.offset + 2, rest⟩ close r inside)
    (later : TakesTemplate (.ofList acc.reverse :: parts)
      (⟨p.offset + 2, .ofList inside⟩ :: holes) [] r q l) :
    TakesTemplate parts holes acc p q l := by
  obtain ⟨cs, parts', holes', hcs, htext, hlength, rfl, hread⟩ := later
  have hpasses : Passes inside := fun n outer => by
    have hscans := hcloses.scans n outer
    rwa [Nat.zero_add, Nat.add_comm 1 n] at hscans
  have hoffset : r.offset = p.offset + 2 + byteLength inside + 1 := by
    rw [hcloses.brace.offset, hcloses.spans.offset]
    rfl
  rw [hoffset] at htext
  have hspans := (hcloses.spans.append hcloses.brace).append hcs
  rw [List.append_assoc] at hspans
  refine ⟨'$' :: '\x7b' :: (inside ++ '\x7d' :: cs), .ofList acc.reverse :: parts',
    ⟨p.offset + 2, .ofList inside⟩ :: holes', .cons hrest (.cons rfl hspans),
    .hole hpasses htext, congrArg (· + 1) hlength, ?_, fun n start holes ds => ?_⟩
  · rw [List.reverse_cons, List.reverse_cons, List.append_assoc, List.append_assoc]
    rfl
  · have hagain := hread n start (⟨p.offset + n + 2, .ofList inside⟩ :: holes) ds
    have hplace : r.offset + n = p.offset + n + 2 + byteLength inside + 1 := by omega
    have hinside : Passes (String.ofList inside).toList := by rwa [String.toList_ofList]
    have hfirst := readTemplate_source hinside start parts holes acc (p.offset + n) (cs ++ ds)
    rw [String.toList_ofList] at hfirst
    rw [hplace] at hagain
    have hmoved : Hole.moved n ⟨p.offset + 2, .ofList inside⟩ =
        ⟨p.offset + n + 2, .ofList inside⟩ := by
      unfold Hole.moved
      rw [Nat.add_right_comm]
    rw [List.cons_append, List.cons_append, List.append_assoc, List.cons_append, hfirst, hagain,
      List.reverse_cons, List.reverse_cons, List.append_assoc, List.append_assoc, List.map_cons,
      hmoved]
    rfl

theorem takesTemplate_escape {decoded : Char} {r : Place} (hrest : p.rest = '\\' :: rest)
    (hesc : readEscape start .unterminatedTemplate ⟨p.offset + 1, rest⟩ = .ok (decoded, r))
    (later : TakesTemplate parts holes (decoded :: acc) r q l) :
    TakesTemplate parts holes acc p q l := by
  obtain ⟨cs, parts', holes', hcs, htext, hlength, rfl, hread⟩ := later
  obtain ⟨escape, hform, hescape, -, hagain⟩ := readEscape_spans hesc
  have hoffset : r.offset = p.offset + 1 + byteLength escape := hescape.offset
  rw [hoffset] at htext
  refine ⟨'\\' :: (escape ++ cs), parts', holes', .cons hrest (hescape.append hcs),
    .escape hform htext, hlength, rfl, fun n start holes ds => ?_⟩
  have hplace : p.offset + n + 1 + byteLength escape = r.offset + n := by omega
  rw [List.cons_append, readTemplate_escape, List.append_assoc, hagain]
  dsimp only
  rw [hplace, hread]

theorem takesTemplate_char (hrest : p.rest = c :: rest) (htick : (c == '\x60') = false)
    (hdollar : (c == '$' && rest.head? == some '\x7b') = false) (hslash : (c == '\\') = false)
    (later : TakesTemplate parts holes (c :: acc) ⟨p.offset + c.utf8Size, rest⟩ q l) :
    TakesTemplate parts holes acc p q l := by
  obtain ⟨cs, parts', holes', hcs, htext, hlength, rfl, hread⟩ := later
  have hnext : rest.head? = cs.head? := by
    obtain ⟨d, ds, rfl⟩ := List.exists_cons_of_ne_nil htext.ne_nil
    have hcs := hcs.rest
    dsimp only at hcs
    rw [hcs]
    rfl
  rw [hnext] at hdollar
  refine ⟨c :: cs, parts', holes', .cons hrest hcs, .char ?_ ?_ ?_ htext, hlength, rfl,
    fun n start holes ds => ?_⟩
  · exact ne_of_beq_false htick
  · exact ne_of_beq_false hslash
  · rintro rfl hhead
    rw [hhead] at hdollar
    cases hdollar
  · have hplace : p.offset + n + c.utf8Size = p.offset + c.utf8Size + n := Nat.add_right_comm ..
    rw [List.cons_append, readTemplate_char _ _ _ _ _ _ htick ?_ hslash, hplace, hread]
    rw [List.head?_append_of_ne_nil _ htext.ne_nil]
    exact hdollar

end Templates

theorem readTemplate_takes (h : readTemplate start parts holes acc p = .ok (l, q)) :
    TakesTemplate parts holes acc p q l := by
  fun_induction readTemplate start parts holes acc p with
  | case1 => cases h
  | case2 parts holes acc p c rest hrest after _ htick =>
    obtain ⟨rfl, rfl⟩ := Prod.mk.inj (Except.ok.inj h)
    obtain rfl := eq_of_beq htick
    exact takesTemplate_close hrest
  | case3 parts holes acc p c rest hrest after _ htick hdollar body close r hhole _ source ih =>
    obtain ⟨hc, hhead⟩ := Bool.and_eq_true .. |>.mp hdollar
    obtain rfl := eq_of_beq hc
    obtain ⟨rest, rfl⟩ := List.head?_eq_some_iff.mp (eq_of_beq hhead)
    obtain ⟨inside, hcloses⟩ := skipHole_closes_one hhole
    have hsource : source = inside := hcloses.spans.upTo_eq
    rw [hsource] at ih h
    exact takesTemplate_hole hrest hcloses (ih h)
  | case4 => cases h
  | case5 parts holes acc p c rest hrest after _ htick hdollar hslash decoded r hesc _ ih =>
    obtain rfl := eq_of_beq hslash
    exact takesTemplate_escape hrest hesc (ih h)
  | case6 => cases h
  | case7 parts holes acc p c rest hrest after _ htick hdollar hslash ih =>
    rw [Bool.not_eq_true] at htick hdollar hslash
    exact takesTemplate_char hrest htick hdollar hslash (ih h)

/-! ## 5. Regular expressions -/

theorem readPatternBody_cons (start : Nat) (inClass : Bool) (acc : List Char) (offset : Nat)
    {c : Char} (hslash : c ≠ '\\') (rest : List Char) :
    readPatternBody start inClass acc offset (c :: rest) =
      if c == '\n' then .error (.badSource start .unterminatedPattern)
      else if c == '/' && !inClass then .ok (acc.reverse, ⟨offset + 1, rest⟩)
      else readPatternBody start (c == '[' || (inClass && c != ']')) (c :: acc)
        (offset + c.utf8Size) rest := by
  rw [readPatternBody]
  · rintro rfl
    exact absurd rfl hslash
  · rintro _ _ rfl
    exact absurd rfl hslash

/-- The body stands before its slash as it is written, and is read alike wherever it stands. -/
theorem readPatternBody_takes {offset : Nat} {inClass : Bool} {body : List Char}
    (h : readPatternBody start inClass acc offset cs = .ok (body, q)) :
    ∃ ds, Place.Spans ⟨offset, cs⟩ q (ds ++ ['/']) ∧ body = acc.reverse ++ ds ∧
      ∀ start offset rest, readPatternBody start inClass acc offset (ds ++ '/' :: rest) =
        .ok (body, ⟨offset + byteLength ds + 1, rest⟩) := by
  fun_induction readPatternBody start inClass acc offset cs with
  | case1 => cases h
  | case2 => cases h
  | case3 inClass acc offset c rest ih =>
    obtain ⟨ds, hds, hbody, hread⟩ := ih h
    refine ⟨'\\' :: c :: ds, .cons rfl (.cons rfl hds), ?_, fun start offset rest => ?_⟩
    · rw [hbody, List.reverse_cons, List.reverse_cons, List.append_assoc, List.append_assoc]
      rfl
    · have hlength : byteLength ('\\' :: c :: ds) = 1 + (c.utf8Size + byteLength ds) := rfl
      rw [List.cons_append, List.cons_append, readPatternBody, hread, hlength,
        Nat.add_assoc offset, Nat.add_assoc offset, Nat.add_assoc 1]
  | case4 => cases h
  | case5 inClass acc offset c rest hone htwo hline hslash =>
    obtain ⟨rfl, rfl⟩ := Prod.mk.inj (Except.ok.inj h)
    obtain ⟨hc, hclass⟩ := Bool.and_eq_true .. |>.mp hslash
    obtain rfl := eq_of_beq hc
    refine ⟨[], .cons rfl (.nil _), (List.append_nil _).symm, fun start offset rest => ?_⟩
    rw [List.nil_append, readPatternBody_cons _ _ _ _ (by decide), if_neg (by decide),
      if_pos hslash]
    rfl
  | case6 inClass acc offset c rest hone htwo hline hslash ih =>
    obtain ⟨ds, hds, hbody, hread⟩ := ih h
    have hescape : c ≠ '\\' := by
      rintro rfl
      cases rest with
      | nil => exact hone rfl rfl
      | cons d rest => exact htwo d rest rfl rfl
    refine ⟨c :: ds, .cons rfl hds, ?_, fun start offset rest => ?_⟩
    · rw [hbody, List.reverse_cons, List.append_assoc]
      rfl
    · rw [List.cons_append, readPatternBody_cons _ _ _ _ hescape, if_neg hline, if_neg hslash,
        hread, byteLength, Nat.add_assoc offset]

/-- A regular expression is written with slashes around its body and flags behind them. -/
def patternText (body flags : String) : List Char := '/' :: (body.toList ++ '/' :: flags.toList)

theorem readPattern_takes {rest : List Char} (hp : p.rest = '/' :: rest)
    (h : readPattern p = .ok (l, q)) :
    ∃ body flags, l = .pattern body flags ∧ p.Spans q (patternText body flags) ∧
      ∀ offset ds, Widened q.rest ds → readPattern ⟨offset, patternText body flags ++ ds⟩ =
        .ok (l, ⟨offset + byteLength (patternText body flags), ds⟩) := by
  unfold readPattern at h
  split at h
  · cases h
  next body r hbody =>
  cases h
  rw [hp, List.drop_one, List.tail_cons] at hbody
  obtain ⟨ds, hds, rfl, hread⟩ := readPatternBody_takes hbody
  have hspans := hds.append (spans_takeWhile r Char.isAlpha)
  rw [List.append_assoc] at hspans
  have htext : patternText (.ofList body) (.ofList (r.rest.takeWhile Char.isAlpha)) =
      '/' :: (body ++ '/' :: r.rest.takeWhile Char.isAlpha) := by
    unfold patternText
    rw [String.toList_ofList, String.toList_ofList]
  refine ⟨.ofList body, .ofList (r.rest.takeWhile Char.isAlpha), rfl, ?_, fun offset ws hws => ?_⟩
  · rw [htext]
    exact .cons hp hspans
  · have hflags := isSteady_spanOf (f := Char.isAlpha) (by decide) r.rest ws hws
    obtain ⟨htake, hdrop⟩ := Prod.mk.inj hflags
    dsimp only [spanOf] at htake hdrop
    unfold readPattern
    rw [htext, List.cons_append, List.append_assoc, List.cons_append]
    dsimp only
    rw [List.drop_one, List.tail_cons, hread]
    unfold Place.past
    dsimp only
    rw [htake, hdrop]
    have hlength : byteLength ('/' :: (body ++ '/' :: r.rest.takeWhile Char.isAlpha)) =
        1 + (byteLength body + (1 + byteLength (r.rest.takeWhile Char.isAlpha))) := by
      rw [byteLength, byteLength_append, byteLength]
      rfl
    rw [hlength, Nat.add_assoc, Nat.add_assoc, Nat.add_assoc]

/-! ## 6. Punctuation -/

/-- A space put between a point and the digit behind it: two tokens in place of a number. -/
def SplitsNumber (cs ds : List Char) : Prop :=
  ∃ d cs' ds', cs = '.' :: d :: cs' ∧ Number.isDigit d = true ∧ ds = '.' :: ' ' :: ds'

theorem startsAt?_eq_some_iff {p : Punct} {cs rest : List Char} :
    p.startsAt? cs = some rest ↔ cs = p.spelling.toList ++ rest ∧
      ¬(p = .optionalDot ∧ rest.head?.any Number.isDigit = true) := by
  unfold Punct.startsAt?
  split
  · next hnone =>
    refine iff_of_false nofun fun h => ?_
    rw [stripStart?_eq_some_iff.mpr h.1] at hnone
    cases hnone
  · next after hsome =>
    have heq := stripStart?_eq_some_iff.mp hsome
    split
    · next hdigit =>
      refine iff_of_false nofun fun h => h.2 ?_
      rw [← List.append_cancel_left (heq.symm.trans h.1)]
      exact hdigit
    · next hdigit =>
      constructor
      · rintro ⟨⟩
        exact ⟨heq, hdigit⟩
      · intro h
        rw [List.append_cancel_left (heq.symm.trans h.1)]

theorem space_not_mem_spelling (p : Punct) : ' ' ∉ p.spelling.toList := by
  cases p <;> decide

/-- What starts like `?.` and is cut off before the point is a question mark. -/
theorem eq_question {p : Punct} (hp : p ≠ .optionalDot) {rest after : List Char}
    (h : p.spelling.toList ++ rest = '?' :: '.' :: after) : rest = '.' :: after := by
  cases p
  case question => exact (List.cons.inj h).2
  case optionalDot => exact absurd rfl hp
  all_goals cases h

/-- What does not begin a text behind a punctuation does not begin it with a wider rest. -/
theorem startsAt?_widened {punct other : Punct} {rest : List Char} (hds : Widened rest ds)
    (hpoint : ¬SplitsNumber rest ds)
    (hpunct : ¬(punct = .optionalDot ∧ rest.head?.any Number.isDigit = true))
    (hnone : other.startsAt? (punct.spelling.toList ++ rest) = none) :
    other.startsAt? (punct.spelling.toList ++ ds) = none := by
  by_contra hsome
  obtain ⟨after, hafter⟩ := Option.ne_none_iff_exists'.mp hsome
  obtain ⟨htext, hfree⟩ := startsAt?_eq_some_iff.mp hafter
  have hwide := hds.append punct.spelling.toList
  rw [htext] at hwide
  obtain ⟨before, hbefore, hlater⟩ := hwide.of_append (space_not_mem_spelling other)
  -- it began the other text as well, so that it is `?.` before a digit there
  have hheld : other = .optionalDot ∧ before.head?.any Number.isDigit = true := by
    by_contra hheld
    rw [startsAt?_eq_some_iff.mpr ⟨hbefore, hheld⟩] at hnone
    cases hnone
  obtain ⟨rfl, hhead⟩ := hheld
  have hne : punct ≠ .optionalDot := by
    rintro rfl
    rw [List.append_cancel_left hbefore] at hpunct
    exact hpunct ⟨rfl, hhead⟩
  have hrest := eq_question hne hbefore
  have hrest' := eq_question hne htext
  cases hlater with
  | same => exact hfree ⟨rfl, hhead⟩
  | cons => exact hfree ⟨rfl, hhead⟩
  | space =>
    cases before with
    | nil => cases hhead
    | cons d before => exact hpoint ⟨d, before, _, hrest, hhead, hrest'⟩

/-- The longest punctuation before a text is still the longest before a wider one. -/
theorem punctAt?_widened {punct : Punct} {rest : List Char} (h : punctAt? cs = some (punct, rest))
    (hds : Widened rest ds) (hpoint : ¬SplitsNumber rest ds) :
    punctAt? (punct.spelling.toList ++ ds) = some (punct, ds) := by
  unfold punctAt? at h ⊢
  obtain ⟨longer, found, shorter, hall, hfound, hlonger⟩ := List.findSome?_eq_some_iff.mp h
  obtain ⟨after, hstart, heq⟩ := Option.map_eq_some_iff.mp hfound
  cases heq
  obtain ⟨rfl, hdigit⟩ := startsAt?_eq_some_iff.mp hstart
  refine List.findSome?_eq_some_iff.mpr ⟨longer, punct, shorter, hall, ?_, fun other hother => ?_⟩
  · have hstart : punct.startsAt? (punct.spelling.toList ++ ds) = some ds :=
      startsAt?_eq_some_iff.mpr ⟨rfl, fun ⟨hp, hhead⟩ => hdigit ⟨hp, hds.any_head? rfl hhead⟩⟩
    rw [hstart]
    rfl
  · have hnone := Option.map_eq_none_iff.mp (hlonger other hother)
    exact Option.map_eq_none_iff.mpr (startsAt?_widened hds hpoint hdigit hnone)

/-! ## 7. Any token -/

/-- The same token farther on in a text, with the substitutions in it. -/
def Lexeme.moved (n : Nat) : Lexeme → Lexeme
  | .template parts holes => .template parts (holes.map (Hole.moved n))
  | l => l

/-- How a token is written at an offset. -/
def Lexeme.SpelledAt (offset : Nat) (cs : List Char) : Lexeme → Prop
  | .number value => ∃ n : Numeral, cs = n.chars ∧ value = n.value
  | .text _ => ∃ quote rest, (quote = '"' ∨ quote = '\'') ∧ cs = quote :: rest ∧ IsQuoted quote rest
  | .name word => cs = word.toList ∧ IsWord word
  | .pattern body flags => cs = patternText body flags
  | .template parts holes => parts.length = holes.length + 1 ∧
      ∃ rest, cs = '\x60' :: rest ∧ IsTemplateText (offset + 1) rest holes
  | .punct p => cs = p.spelling.toList
  | .finish => False

/-- What a reader of tokens takes for a token, and takes for it elsewhere. -/
structure TakesText (read : Place → Lexing Lexeme) (p q : Place) (l : Lexeme) (cs : List Char) :
    Prop where
  spans : p.Spans q cs
  spelled : l.SpelledAt p.offset cs
  again : ∀ n ds, Widened q.rest ds → ¬SplitsNumber q.rest ds →
    read ⟨p.offset + n, cs ++ ds⟩ = .ok (l.moved n, ⟨q.offset + n, ds⟩)

/-- The tests of the first characters decide alike where the rest is wider. -/
theorem startsNumber_widened {c : Char} {ds' : List Char} (hds : Widened ds ds') (cs : List Char)
    (h : (Number.isDigit c || c == '.' && (cs ++ ds).head?.any Number.isDigit) = false) :
    (Number.isDigit c || c == '.' && (cs ++ ds').head?.any Number.isDigit) = false := by
  rw [Bool.or_eq_false_iff, Bool.and_eq_false_iff] at h ⊢
  refine ⟨h.1, h.2.imp_right fun hnext => ?_⟩
  rw [Bool.eq_false_iff] at hnext ⊢
  exact fun hhead => hnext ((hds.append cs).any_head? rfl hhead)

/-- A reader that starts at a character, which the token before may decide. -/
def lexemeAt (previous : Option Lexeme) (c : Char) (p : Place) : Lexing Lexeme :=
  readLexeme previous p c (p.rest.drop 1).head?

section FirstCharacter

variable {previous : Option Lexeme} {c : Char} {rest : List Char} (hp : p.rest = c :: rest)
include hp

theorem takesText_number
    (hnumber : (Number.isDigit c || c == '.' && rest.head?.any Number.isDigit) = true)
    (h : readNumber p = .ok (l, q)) : ∃ cs, TakesText (lexemeAt previous c) p q l (c :: cs) := by
  have hc : Number.isDigit c = true ∨ c = '.' := by
    rcases Bool.or_eq_true .. |>.mp hnumber with hc | hc
    · exact .inl hc
    · exact .inr (eq_of_beq (Bool.and_eq_true .. |>.mp hc).1)
  obtain ⟨n, rfl, hspans, hread⟩ := readNumber_takes hp hc h
  obtain ⟨d, cs, hchars, hstart⟩ := n.start
  have hfirst := hspans.rest
  rw [hp, hchars, List.cons_append] at hfirst
  obtain ⟨rfl, -⟩ := List.cons.inj hfirst
  refine ⟨cs, hchars ▸ hspans, ⟨n, hchars.symm, rfl⟩, fun m ds hds _ => ?_⟩
  have hnumber : (Number.isDigit c || c == '.' && (cs ++ ds).head?.any Number.isDigit) = true := by
    rw [Bool.or_eq_true, Bool.and_eq_true, beq_iff_eq]
    refine hstart.imp_right fun ⟨hpoint, hdigit⟩ => ⟨hpoint, ?_⟩
    cases cs with
    | nil => cases hdigit
    | cons d cs => exact hdigit
  have hagain := hread (p.offset + m) ds hds
  rw [hchars, List.cons_append] at hagain
  unfold lexemeAt readLexeme
  rw [List.cons_append, List.drop_one, List.tail_cons, if_pos hnumber, hagain, Nat.add_right_comm,
    ← hchars, ← hspans.offset]
  rfl

variable (hnumber : (Number.isDigit c || c == '.' && rest.head?.any Number.isDigit) = false)
include hnumber

/-- Behind the test for numbers only the character and the token before decide. -/
theorem lexemeAt_widened {cs ds : List Char} (hspans : p.Spans q (c :: cs))
    (hds : Widened q.rest ds) (offset : Nat) :
    lexemeAt previous c ⟨offset, c :: cs ++ ds⟩ =
      let p : Place := ⟨offset, c :: (cs ++ ds)⟩
      if c == '"' || c == '\'' then
        match readString offset c [] ⟨offset + 1, cs ++ ds⟩ with
        | .ok (s, q) => .ok (.text (.ofList s), q)
        | .error e => .error e
      else if c == '\x60' then readTemplate offset [] [] [] ⟨offset + 1, cs ++ ds⟩
      else if isIdentStart c then .ok (readName p)
      else if c == '/' && previous.all Lexeme.allowsPattern then readPattern p
      else readPunct p := by
  have hrest := hspans.rest
  rw [hp, List.cons_append] at hrest
  obtain ⟨-, rfl⟩ := List.cons.inj hrest
  unfold lexemeAt readLexeme
  rw [List.cons_append, List.drop_one, List.tail_cons, startsNumber_widened hds cs hnumber]
  rfl

theorem takesText_string (hquote : (c == '"' || c == '\'') = true) {value : List Char}
    (h : readString p.offset c [] ⟨p.offset + 1, rest⟩ = .ok (value, q)) :
    ∃ cs, TakesText (lexemeAt previous c) p q (.text (.ofList value)) (c :: cs) := by
  obtain ⟨cs, value, hquoted, hcs, rfl, hread⟩ := readString_spans h
  have hone : c.utf8Size = 1 := by
    rcases Bool.or_eq_true .. |>.mp hquote with hc | hc <;> rw [eq_of_beq hc] <;> rfl
  have hspans : p.Spans q (c :: cs) := .cons hp (by rwa [hone])
  have hform : c = '"' ∨ c = '\'' := by rwa [Bool.or_eq_true, beq_iff_eq, beq_iff_eq] at hquote
  refine ⟨cs, hspans, ⟨c, cs, hform, rfl, hquoted⟩, fun n ds hds _ => ?_⟩
  have hplace : p.offset + n + 1 + byteLength cs = q.offset + n := by
    have hoffset : q.offset = p.offset + 1 + byteLength cs := hcs.offset
    omega
  rw [lexemeAt_widened hp hnumber hspans hds, if_pos hquote, hread, hplace]
  rfl

theorem takesText_template (hc : c = '\x60')
    (h : readTemplate p.offset [] [] [] ⟨p.offset + 1, rest⟩ = .ok (l, q)) :
    ∃ cs, TakesText (lexemeAt previous c) p q l (c :: cs) := by
  subst hc
  obtain ⟨cs, parts, holes, hcs, htext, hlength, rfl, hread⟩ := readTemplate_takes h
  have hspans : p.Spans q ('\x60' :: cs) := .cons hp hcs
  refine ⟨cs, hspans, ⟨hlength, cs, rfl, htext⟩, fun n ds hds _ => ?_⟩
  rw [lexemeAt_widened hp hnumber hspans hds, if_neg (by decide), if_pos (by decide),
    Nat.add_right_comm]
  exact hread n _ _ ds

omit hnumber in
theorem takesText_name (hc : isIdentStart c = true) (h : readName p = (l, q)) :
    ∃ cs, TakesText (lexemeAt previous c) p q l (c :: cs) := by
  have hspans := spans_takeWhile p isIdentChar
  have hchar := isIdentChar_of_isIdentStart hc
  obtain ⟨rfl, rfl⟩ := Prod.mk.inj h
  have hword := isWord_of_readName hp hc h
  have htaken : p.rest.takeWhile isIdentChar = c :: rest.takeWhile isIdentChar := by
    rw [hp, List.takeWhile_cons_of_pos hchar]
  rw [htaken] at hspans hword ⊢
  refine ⟨rest.takeWhile isIdentChar, hspans, ⟨String.toList_ofList.symm, hword⟩,
    fun n ds hds _ => ?_⟩
  have hstop : ∀ d ∈ ds.head?, isIdentChar d = false :=
    hds.stops (by decide) (head?_dropWhile isIdentChar p.rest)
  unfold lexemeAt
  rw [List.cons_append, readLexeme_name hc (fun d hd => List.mem_takeWhile_imp hd) hstop,
    Nat.add_right_comm]
  rfl

theorem takesText_pattern (hc : c = '/') (hprevious : previous.all Lexeme.allowsPattern = true)
    (h : readPattern p = .ok (l, q)) :
    ∃ cs, TakesText (lexemeAt previous c) p q l (c :: cs) := by
  subst hc
  obtain ⟨body, flags, rfl, hspans, hread⟩ := readPattern_takes hp h
  refine ⟨_, hspans, rfl, fun n ds hds _ => ?_⟩
  rw [lexemeAt_widened hp hnumber hspans hds, if_neg (by decide), if_neg (by decide),
    if_neg (by decide), if_pos (by rw [hprevious]; rfl), hspans.offset, Nat.add_right_comm]
  exact hread (p.offset + n) ds hds

theorem takesText_punct (hquote : ¬(c == '"' || c == '\'') = true) (htick : ¬(c == '\x60') = true)
    (hname : ¬isIdentStart c = true)
    (hpattern : ¬(c == '/' && previous.all Lexeme.allowsPattern) = true)
    (h : readPunct p = .ok (l, q)) : ∃ cs, TakesText (lexemeAt previous c) p q l (c :: cs) := by
  unfold readPunct at h
  split at h
  · next punct after hpunct =>
    cases h
    have hrest := punctAt?_eq hpunct
    obtain ⟨d, cs, hspelling⟩ : ∃ d cs, punct.spelling.toList = d :: cs := by
      cases punct <;> exact ⟨_, _, rfl⟩
    have hspans : p.Spans (p.past punct.spelling.toList after) punct.spelling.toList := ⟨hrest, rfl⟩
    have hfirst := hrest
    rw [hp, hspelling] at hfirst
    obtain ⟨rfl, -⟩ := List.cons.inj hfirst
    rw [hspelling] at hspans ⊢
    refine ⟨cs, hspans, hspelling.symm, fun n ds hds hpoint => ?_⟩
    rw [lexemeAt_widened hp hnumber hspans hds, if_neg hquote, if_neg htick, if_neg hname,
      if_neg hpattern]
    have hagain := punctAt?_widened hpunct hds hpoint
    rw [hspelling, List.cons_append] at hagain
    unfold readPunct
    rw [hagain]
    unfold Place.past
    dsimp only
    rw [Nat.add_right_comm, hspelling]
    rfl
  · cases h

end FirstCharacter

/-- What is read as a token at a place is read as this token where the rest is wider. -/
theorem readLexeme_takes {previous : Option Lexeme} {c : Char} {rest : List Char}
    (hp : p.rest = c :: rest) (h : readLexeme previous p c rest.head? = .ok (l, q)) :
    ∃ cs, TakesText (lexemeAt previous c) p q l (c :: cs) := by
  unfold readLexeme at h
  split at h
  · next hnumber => exact takesText_number hp hnumber h
  next hnumber =>
  rw [Bool.not_eq_true] at hnumber
  rw [hp, List.drop_one, List.tail_cons] at h
  split at h
  · next hquote =>
    split at h
    · next hread =>
      cases h
      exact takesText_string hp hnumber hquote hread
    · cases h
  split at h
  · next hc => exact takesText_template hp hnumber (eq_of_beq hc) h
  split at h
  · next hc => exact takesText_name hp hc (Except.ok.inj h)
  split at h
  · next hc =>
    obtain ⟨hc, hprevious⟩ := Bool.and_eq_true .. |>.mp hc
    exact takesText_pattern hp hnumber (eq_of_beq hc) hprevious h
  · next hquote htick hname hpattern =>
    exact takesText_punct hp hnumber hquote htick hname hpattern h

end TraceViewer.Snippet
