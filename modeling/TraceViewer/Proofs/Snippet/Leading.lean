import TraceViewer.Proofs.Snippet.NumberDisplay

/-!
# The number at the start of a text

Of the numerals that a text starts with, behind its blanks, the longest one is read.  A numeral here
has a sign or none, and is an infinity or a decimal literal.  The reader goes on from one run of
digits to the next, so that a longer numeral would have to go on where a run has stopped.
-/

namespace TraceViewer.Snippet

open TraceViewer.Text

/-! ## 1. Numerals and starts of a text -/

/-- An infinity or a decimal literal, with a sign or none. -/
inductive IsNumeral : List Char → Prop
  | infinity (sign : Sign) : IsNumeral (sign.chars ++ "Infinity".toList)
  | decimal (sign : Sign) (d : Decimal) : IsNumeral (sign.chars ++ d.chars)

/-- The longest start of a text that has a form. -/
structure IsLongestStart (form : List Char → Prop) (start cs : List Char) : Prop where
  isStart : start <+: cs
  hasForm : form start
  length_le : ∀ other, other <+: cs → form other → other.length ≤ start.length

variable {cs xs ys : List Char} {f : Char → Bool}

/-- A run at the start of a text is no longer than the whole run there. -/
theorem length_le_takeWhile (hxs : ∀ c ∈ xs, f c = true) (h : xs <+: cs) :
    xs.length ≤ (cs.takeWhile f).length := by
  obtain ⟨rest, rfl⟩ := h
  rw [List.takeWhile_append_of_pos hxs, List.length_append]
  omega

/-- A run that something else follows is the whole run. -/
theorem eq_takeWhile {c : Char} (hxs : ∀ c ∈ xs, f c = true) (hc : f c = false)
    (h : xs ++ c :: ys <+: cs) : xs = cs.takeWhile f ∧ c :: ys <+: cs.dropWhile f := by
  obtain ⟨rest, rfl⟩ := h
  rw [List.append_assoc]
  have hrest : ∀ d ∈ (c :: ys ++ rest).head?, f d = false := by
    rintro _ ⟨⟩
    exact hc
  obtain ⟨htake, hdrop⟩ := takeWhile_stop hxs hrest
  rw [htake, hdrop]
  exact ⟨rfl, List.prefix_append _ _⟩

/-! ## 2. Exponents -/

theorem isDigit_takeWhile (cs : List Char) :
    ∀ c ∈ cs.takeWhile Number.isDigit, Number.isDigit c = true :=
  fun _ hc => List.mem_takeWhile_imp hc

theorem isMark_of_beq {c : Char} (h : (c == 'e' || c == 'E') = true) : c = 'e' ∨ c = 'E' := by
  simpa using h

/-- What is taken for an exponent is one, or nothing. -/
theorem exists_leadingExponent (cs : List Char) :
    ∃ x?, leadingExponent cs = exponentChars x? ∧ exponentChars x? <+: cs := by
  have hsigned (mark : Char) (sign : Sign) (digits : List Char) :
      ∃ x?, (if (mark == 'e' || mark == 'E') && !(digits.takeWhile Number.isDigit).isEmpty then
          mark :: sign.chars ++ digits.takeWhile Number.isDigit else []) = exponentChars x? ∧
        exponentChars x? <+: mark :: (sign.chars ++ digits) := by
    split
    · next h =>
      obtain ⟨hmark, hdigits⟩ := Bool.and_eq_true .. |>.mp h
      have hne : digits.takeWhile Number.isDigit ≠ [] := by simpa using hdigits
      refine ⟨some ⟨mark, sign, digits.takeWhile Number.isDigit, isMark_of_beq hmark,
        isDigit_takeWhile digits, hne⟩, rfl, ?_⟩
      apply List.prefix_cons_inj mark |>.mpr
      apply List.prefix_append_right_inj _ |>.mpr
      exact List.takeWhile_prefix _
    · exact ⟨none, rfl, List.nil_prefix⟩
  cases cs with
  | nil => exact ⟨none, rfl, List.nil_prefix⟩
  | cons mark rest =>
    unfold leadingExponent
    dsimp only
    split
    · next digits => exact hsigned mark .plus digits
    · next digits => exact hsigned mark .minus digits
    · exact hsigned mark .absent rest

/-- No exponent at the start of a text is longer than what is taken for it. -/
theorem length_exponent_le {x : Exponent} (h : x.chars <+: cs) :
    x.chars.length ≤ (leadingExponent cs).length := by
  obtain ⟨rest, rfl⟩ := h
  have hread (sign : List Char) :
      (x.mark :: (sign ++ x.digits)).length ≤
      (if (x.mark == 'e' || x.mark == 'E') &&
          !((x.digits ++ rest).takeWhile Number.isDigit).isEmpty then
        x.mark :: sign ++ (x.digits ++ rest).takeWhile Number.isDigit else []).length := by
    have htaken := length_le_takeWhile x.isDigit (List.prefix_append x.digits rest)
    have hpos := List.length_pos_iff.mpr x.ne_nil
    have hne : (x.digits ++ rest).takeWhile Number.isDigit ≠ [] :=
      List.ne_nil_of_length_pos (by omega)
    rw [beq_or_of_eq x.isMark, List.isEmpty_eq_false_iff.mpr hne]
    simp only [Bool.not_false, Bool.and_self, ↓reduceIte, List.length_cons, List.cons_append,
      List.length_append]
    omega
  unfold Exponent.chars leadingExponent
  rw [List.cons_append, List.append_assoc]
  cases x.sign with
  | plus => exact hread ['+']
  | minus => exact hread ['-']
  | absent =>
    dsimp only [Sign.chars, List.nil_append]
    split
    · next heq => exact absurd heq (x.ne_sign rest _).1
    · next heq => exact absurd heq (x.ne_sign rest _).2
    · exact hread []

/-! ## 3. Decimal literals -/

theorem leadingDecimal_of_point {rest : List Char}
    (h : cs.dropWhile Number.isDigit = '.' :: rest)
    (hne : cs.takeWhile Number.isDigit ≠ [] ∨ rest.takeWhile Number.isDigit ≠ []) :
    leadingDecimal cs = cs.takeWhile Number.isDigit ++ '.' :: rest.takeWhile Number.isDigit ++
      leadingExponent (rest.dropWhile Number.isDigit) := by
  have hsome : ((cs.takeWhile Number.isDigit).isEmpty &&
      (rest.takeWhile Number.isDigit).isEmpty) = false := by
    rwa [Bool.and_eq_false_iff, List.isEmpty_eq_false_iff, List.isEmpty_eq_false_iff]
  unfold leadingDecimal
  simp [h, hsome]

theorem leadingDecimal_of_lonePoint {rest : List Char}
    (h : cs.dropWhile Number.isDigit = '.' :: rest) (hwhole : cs.takeWhile Number.isDigit = [])
    (hplaces : rest.takeWhile Number.isDigit = []) : leadingDecimal cs = [] := by
  unfold leadingDecimal
  simp [h, hwhole, hplaces]

theorem leadingDecimal_of_whole (h : ∀ rest, cs.dropWhile Number.isDigit ≠ '.' :: rest) :
    leadingDecimal cs = if (cs.takeWhile Number.isDigit).isEmpty then [] else
      cs.takeWhile Number.isDigit ++ leadingExponent (cs.dropWhile Number.isDigit) := by
  unfold leadingDecimal
  dsimp only
  generalize cs.dropWhile Number.isDigit = rest at h
  split
  · exact absurd rfl (h _)
  · simp

/-- What is taken for a decimal literal is one, or nothing. -/
theorem leadingDecimal_cases (cs : List Char) :
    leadingDecimal cs = [] ∨ ∃ d : Decimal, leadingDecimal cs = d.chars ∧ d.chars <+: cs := by
  have hsplit := List.takeWhile_append_dropWhile (p := Number.isDigit) (l := cs)
  have hwhole := isDigit_takeWhile cs
  by_cases hpoint : ∃ rest, cs.dropWhile Number.isDigit = '.' :: rest
  · obtain ⟨rest, hrest⟩ := hpoint
    by_cases hnone : cs.takeWhile Number.isDigit = [] ∧ rest.takeWhile Number.isDigit = []
    · exact .inl (leadingDecimal_of_lonePoint hrest hnone.1 hnone.2)
    · have hne := not_and_or.mp hnone
      obtain ⟨x?, hx, hstart⟩ := exists_leadingExponent (rest.dropWhile Number.isDigit)
      right
      refine ⟨⟨_, some (rest.takeWhile Number.isDigit), x?, hwhole, isDigit_takeWhile rest, hne⟩,
        ?_, ?_⟩
      · rw [leadingDecimal_of_point hrest hne, hx, List.append_assoc]
        rfl
      · have hplaces := List.takeWhile_append_dropWhile (p := Number.isDigit) (l := rest)
        have hbehind : rest.takeWhile Number.isDigit ++ exponentChars x? <+: rest := by
          conv => rhs; rw [← hplaces]
          exact List.prefix_append_right_inj _ |>.mpr hstart
        conv => rhs; rw [← hsplit, hrest]
        apply List.prefix_append_right_inj _ |>.mpr
        exact List.prefix_cons_inj '.' |>.mpr hbehind
  · have hplain : ∀ rest, cs.dropWhile Number.isDigit ≠ '.' :: rest :=
      fun rest hrest => hpoint ⟨rest, hrest⟩
    rw [leadingDecimal_of_whole hplain]
    split
    · exact .inl rfl
    · next hne =>
      have hne : cs.takeWhile Number.isDigit ≠ [] := by simpa using hne
      obtain ⟨x?, hx, hstart⟩ := exists_leadingExponent (cs.dropWhile Number.isDigit)
      right
      have hplaces : ∀ c ∈ (none : Option (List Char)).getD [], Number.isDigit c = true :=
        List.forall_mem_nil _
      refine ⟨⟨_, none, x?, hwhole, hplaces, .inl hne⟩, ?_, ?_⟩
      · rw [hx]
        rfl
      · conv => rhs; rw [← hsplit]
        exact List.prefix_append_right_inj _ |>.mpr hstart

/-- The whole run of digits is taken in any case. -/
theorem length_whole_le (cs : List Char) :
    (cs.takeWhile Number.isDigit).length ≤ (leadingDecimal cs).length := by
  by_cases hnil : cs.takeWhile Number.isDigit = []
  · rw [hnil]
    exact Nat.zero_le _
  by_cases hpoint : ∃ rest, cs.dropWhile Number.isDigit = '.' :: rest
  · obtain ⟨rest, hrest⟩ := hpoint
    rw [leadingDecimal_of_point hrest (.inl hnil), List.length_append, List.length_append]
    omega
  · rw [leadingDecimal_of_whole fun rest hrest => hpoint ⟨rest, hrest⟩,
      List.isEmpty_eq_false_iff.mpr hnil]
    simp

theorem isDigit_mark (x : Exponent) : Number.isDigit x.mark = false := by
  rcases x.isMark with hmark | hmark <;> rw [hmark] <;> rfl

/-- A run of digits and what may be an exponent behind it fit into the whole run and what is taken
for an exponent behind that. -/
theorem length_digits_exponent_le {digits : List Char} {x? : Option Exponent}
    (hdigits : ∀ c ∈ digits, Number.isDigit c = true) (h : digits ++ exponentChars x? <+: cs) :
    (digits ++ exponentChars x?).length ≤ (cs.takeWhile Number.isDigit).length +
      (leadingExponent (cs.dropWhile Number.isDigit)).length := by
  cases x? with
  | none =>
    have hle := length_le_takeWhile hdigits ((List.prefix_append _ _).trans h)
    rw [List.length_append]
    simp only [exponentChars, Option.map_none, Option.getD_none, List.length_nil]
    omega
  | some x =>
    obtain ⟨rfl, hrest⟩ := eq_takeWhile hdigits (isDigit_mark x) h
    have hle : x.chars.length ≤ _ := length_exponent_le hrest
    rw [List.length_append]
    exact Nat.add_le_add_left hle _

/-- No decimal literal at the start of a text is longer than what is taken for one. -/
theorem length_decimal_le {d : Decimal} (h : d.chars <+: cs) :
    d.chars.length ≤ (leadingDecimal cs).length := by
  obtain ⟨whole, places, x?, hwhole, hplaces, hne⟩ := d
  change whole ++ (placesChars places ++ exponentChars x?) <+: cs at h
  change (whole ++ (placesChars places ++ exponentChars x?)).length ≤ _
  cases places with
  | some digits =>
    obtain ⟨rfl, hpoint⟩ := eq_takeWhile hwhole rfl h
    obtain ⟨rest, hrest⟩ : ∃ rest, cs.dropWhile Number.isDigit = '.' :: rest := by
      obtain ⟨rest, hrest⟩ := hpoint
      exact ⟨_, hrest.symm⟩
    rw [hrest] at hpoint
    have hbehind : digits ++ exponentChars x? <+: rest := List.prefix_cons_inj '.' |>.mp hpoint
    have htaken := length_digits_exponent_le hplaces hbehind
    have hne : cs.takeWhile Number.isDigit ≠ [] ∨ rest.takeWhile Number.isDigit ≠ [] := by
      refine hne.imp_right fun hdigits => ?_
      have hpos := List.length_pos_iff.mpr hdigits
      have hle := length_le_takeWhile hplaces ((List.prefix_append _ _).trans hbehind)
      exact List.ne_nil_of_length_pos (Nat.lt_of_lt_of_le hpos hle)
    rw [leadingDecimal_of_point hrest hne]
    simp only [placesChars, Option.getD_some, List.length_append, List.length_cons,
      List.cons_append] at htaken ⊢
    omega
  | none =>
    have hne : whole ≠ [] := hne.resolve_right (absurd rfl)
    cases x? with
    | none =>
      have hle := length_le_takeWhile hwhole ((List.prefix_append _ _).trans h)
      have hall := length_whole_le cs
      rw [List.length_append]
      simp only [placesChars, exponentChars, Option.map_none, Option.getD_none,
        List.append_nil, List.length_nil]
      omega
    | some x =>
      -- what follows the digits is the mark of an exponent, so it is no point
      obtain ⟨rfl, hrest⟩ := eq_takeWhile hwhole (isDigit_mark x) h
      have hplain : ∀ rest, cs.dropWhile Number.isDigit ≠ '.' :: rest := by
        intro rest heq
        rw [heq] at hrest
        have hmark := (List.cons_prefix_cons.mp hrest).1
        rcases x.isMark with h | h <;> rw [h] at hmark <;> cases hmark
      have hle : x.chars.length ≤ _ := length_exponent_le hrest
      rw [leadingDecimal_of_whole hplain, List.isEmpty_eq_false_iff.mpr hne]
      simp only [List.length_append, placesChars, List.length_nil, Bool.false_eq_true,
        ↓reduceIte]
      exact Nat.add_le_add_left (Nat.zero_add _ ▸ hle) _

/-! ## 4. Signs -/

/-- Characters that do not begin with a sign. -/
def IsUnsigned (cs : List Char) : Prop := ∃ c rest, cs = c :: rest ∧ c ≠ '-' ∧ c ≠ '+'

theorem isUnsigned_infinity : IsUnsigned "Infinity".toList :=
  ⟨'I', _, rfl, by decide, by decide⟩

theorem Decimal.isUnsigned (d : Decimal) : IsUnsigned d.chars := by
  obtain ⟨c, rest, hchars, hstart⟩ := d.start
  refine ⟨c, rest, hchars, ?_, ?_⟩
  all_goals
    rintro rfl
    rcases hstart with hc | ⟨hc, -⟩ <;> cases hc

/-- A text is a sign and a body, and every numeral at its start has this sign. -/
structure IsSigned (negative : Bool) (sign : Sign) (body cs : List Char) : Prop where
  eq_append : cs = sign.chars ++ body
  withSign : ∀ x, Number.withSign negative x = sign.apply x
  eq_sign : ∀ (other : Sign) (rest : List Char), IsUnsigned rest → other.chars ++ rest <+: cs →
    other = sign ∧ rest <+: body

/-- The sign is taken off. -/
theorem isSigned_signOf (cs : List Char) :
    ∃ sign, IsSigned (signOf cs).1 sign (signOf cs).2 cs := by
  unfold signOf
  split
  · next rest =>
    refine ⟨.minus, rfl, fun x => rfl, fun other body ⟨c, bs, hbody, hminus, hplus⟩ h => ?_⟩
    subst hbody
    cases other with
    | minus => exact ⟨rfl, (List.cons_prefix_cons.mp h).2⟩
    | plus => cases (List.cons_prefix_cons.mp h).1
    | absent => exact absurd (List.cons_prefix_cons.mp h).1 hminus
  · next rest =>
    refine ⟨.plus, rfl, fun x => rfl, fun other body ⟨c, bs, hbody, hminus, hplus⟩ h => ?_⟩
    subst hbody
    cases other with
    | plus => exact ⟨rfl, (List.cons_prefix_cons.mp h).2⟩
    | minus => cases (List.cons_prefix_cons.mp h).1
    | absent => exact absurd (List.cons_prefix_cons.mp h).1 hplus
  · next hminus hplus =>
    refine ⟨.absent, rfl, fun x => rfl, fun other body _ h => ?_⟩
    obtain ⟨rest, hrest⟩ := h
    cases other with
    | absent => exact ⟨rfl, rest, hrest⟩
    | minus => exact absurd hrest.symm (hminus _)
    | plus => exact absurd hrest.symm (hplus _)

/-! ## 5. The longest numeral -/

theorem textNumber_infinity (sign : Sign) :
    textNumber (.ofList (sign.chars ++ "Infinity".toList)) = sign.apply Number.infinity := by
  cases sign <;> decide

/-- An infinity and a decimal literal do not start alike. -/
theorem not_start_infinity {d : Decimal} (hinfinity : "Infinity".toList <+: cs) :
    ¬d.chars <+: cs := by
  rintro ⟨rest, hrest⟩
  obtain ⟨rest', rfl⟩ := hinfinity
  obtain ⟨c, ds, hchars, hstart⟩ := d.start
  rw [hchars, List.cons_append] at hrest
  obtain ⟨rfl, -⟩ := List.cons.inj hrest
  rcases hstart with hc | ⟨hc, -⟩ <;> cases hc

namespace IsSigned

variable {negative : Bool} {sign : Sign} {body : List Char} (h : IsSigned negative sign body cs)
include h

/-- Only an infinity stands where one stands. -/
theorem isLongestStart_infinity (hinfinity : "Infinity".toList <+: body) :
    IsLongestStart IsNumeral (sign.chars ++ "Infinity".toList) cs := by
  refine ⟨?_, .infinity sign, ?_⟩
  · rw [h.eq_append]
    exact List.prefix_append_right_inj _ |>.mpr hinfinity
  · intro other hother hform
    cases hform with
    | infinity sign' =>
      obtain ⟨rfl, -⟩ := h.eq_sign sign' _ isUnsigned_infinity hother
      exact Nat.le_refl _
    | decimal sign' d =>
      obtain ⟨-, hd⟩ := h.eq_sign sign' _ d.isUnsigned hother
      exact absurd hd (not_start_infinity hinfinity)

/-- Without an infinity every numeral is a decimal literal, no longer than what is taken for one. -/
theorem exists_decimal (hinfinity : ¬"Infinity".toList <+: body) {other : List Char}
    (hother : other <+: cs) (hform : IsNumeral other) :
    ∃ d : Decimal, other = sign.chars ++ d.chars ∧
      d.chars.length ≤ (leadingDecimal body).length := by
  cases hform with
  | infinity sign' => exact absurd (h.eq_sign sign' _ isUnsigned_infinity hother).2 hinfinity
  | decimal sign' d =>
    obtain ⟨rfl, hd⟩ := h.eq_sign sign' _ d.isUnsigned hother
    exact ⟨d, rfl, length_decimal_le hd⟩

theorem isLongestStart_decimal (hinfinity : ¬"Infinity".toList <+: body) {d : Decimal}
    (hd : leadingDecimal body = d.chars) (hstart : d.chars <+: body) :
    IsLongestStart IsNumeral (sign.chars ++ d.chars) cs := by
  refine ⟨?_, .decimal sign d, ?_⟩
  · rw [h.eq_append]
    exact List.prefix_append_right_inj _ |>.mpr hstart
  · intro other hother hform
    obtain ⟨d', rfl, hle⟩ := h.exists_decimal hinfinity hother hform
    rw [hd] at hle
    rw [List.length_append, List.length_append]
    omega

theorem not_isNumeral (hinfinity : ¬"Infinity".toList <+: body) (hnone : leadingDecimal body = [])
    {start : List Char} (hstart : start <+: cs) : ¬IsNumeral start := by
  intro hform
  obtain ⟨d, -, hle⟩ := h.exists_decimal hinfinity hstart hform
  obtain ⟨c, ds, hchars, -⟩ := d.start
  rw [hchars, hnone] at hle
  simp at hle

end IsSigned

theorem isSome_stripStart?_iff {start : List Char} :
    (stripStart? start cs).isSome = true ↔ start <+: cs := by
  rw [Option.isSome_iff_exists]
  constructor
  · rintro ⟨rest, hrest⟩
    exact ⟨rest, (stripStart?_eq_some_iff.mp hrest).symm⟩
  · rintro ⟨rest, hrest⟩
    exact ⟨rest, stripStart?_eq_some_iff.mpr hrest.symm⟩

section Reading

variable {s : String} {negative : Bool} {body : List Char}
  (h : signOf (dropBlanks s.toList) = (negative, body))
include h

theorem leadingNumber_infinity (hinfinity : "Infinity".toList <+: body) :
    leadingNumber s = Number.withSign negative Number.infinity := by
  unfold leadingNumber
  rw [h]
  dsimp only
  rw [if_pos (isSome_stripStart?_iff.mpr hinfinity)]

theorem leadingNumber_decimal (hinfinity : ¬"Infinity".toList <+: body) {d : Decimal}
    (hd : leadingDecimal body = d.chars) :
    leadingNumber s = Number.withSign negative d.value := by
  have hread := decimal?_chars d
  obtain ⟨c, cs, hchars, -⟩ := d.start
  unfold leadingNumber
  rw [h]
  dsimp only
  rw [if_neg (mt isSome_stripStart?_iff.mp hinfinity), hd]
  rw [hchars] at hread ⊢
  show Number.withSign negative ((Number.decimal? (c :: cs)).getD Number.nan) = _
  rw [hread]
  rfl

theorem leadingNumber_none (hinfinity : ¬"Infinity".toList <+: body)
    (hnone : leadingDecimal body = []) : leadingNumber s = Number.nan := by
  unfold leadingNumber
  rw [h]
  dsimp only
  rw [if_neg (mt isSome_stripStart?_iff.mp hinfinity), hnone]

end Reading

/-- Behind the blanks at its start, a text is read as the number that the longest numeral there
writes, and as none when no numeral stands there. -/
theorem leadingNumber_longest (s : String) :
    (∃ numeral, IsLongestStart IsNumeral numeral (dropBlanks s.toList) ∧
      leadingNumber s = textNumber (.ofList numeral)) ∨
    ((∀ start, start <+: dropBlanks s.toList → ¬IsNumeral start) ∧
      leadingNumber s = Number.nan) := by
  obtain ⟨sign, h⟩ := isSigned_signOf (dropBlanks s.toList)
  cases hsplit : signOf (dropBlanks s.toList) with
  | mk negative body =>
  rw [hsplit] at h
  dsimp only at h
  by_cases hinfinity : "Infinity".toList <+: body
  · left
    refine ⟨_, h.isLongestStart_infinity hinfinity, ?_⟩
    rw [leadingNumber_infinity hsplit hinfinity, textNumber_infinity, h.withSign]
  rcases leadingDecimal_cases body with hnone | ⟨d, hd, hstart⟩
  · right
    refine ⟨fun start hstart => h.not_isNumeral hinfinity hnone hstart, ?_⟩
    exact leadingNumber_none hsplit hinfinity hnone
  · left
    refine ⟨_, h.isLongestStart_decimal hinfinity hd hstart, ?_⟩
    rw [leadingNumber_decimal hsplit hinfinity hd, textNumber_signed sign String.toList_ofList,
      h.withSign]

/-- A point needs a digit beside it, and an exponent needs digits. -/
example : leadingNumber " -12.e5e+" = textNumber "-12.e5" ∧ leadingNumber "+.e5" = Number.nan := by
  decide +kernel

end TraceViewer.Snippet
