import TraceViewer.Proofs.Number.Shortest
import TraceViewer.Proofs.Snippet.Numerals
import TraceViewer.Proofs.Text.Trimming
import TraceViewer.Snippet.Numeral

/-!
# Texts that are numbers

A text is a number when it is a decimal literal or an infinity, with a sign or none, or a
hexadecimal literal.  The hexadecimal ones are read as signed integers of `64` bits, so they may
have a sign behind their mark, and beyond the range of these integers they are no numbers.
-/

namespace TraceViewer.Snippet

open TraceViewer.Text

/-! ## 1. Decimal literals -/

/-- The number with the sign before it. -/
def Sign.apply : Sign → Float → Float
  | .minus, x => -x
  | .absent, x | .plus, x => x

theorem Sign.eq_withSign (sign : Sign) (x : Float) :
    ∃ negative, sign.apply x = Number.withSign negative x := by
  cases sign with
  | minus => exact ⟨true, rfl⟩
  | absent | plus => exact ⟨false, rfl⟩

theorem decimal?_signed (sign : Sign) (d : Decimal) :
    Number.decimal? (sign.chars ++ d.chars) = some (sign.apply d.value) := by
  cases sign with
  | absent => exact decimal?_chars d
  | plus => exact unsignedDecimal?_chars d
  | minus =>
    show (Number.unsignedDecimal? d.chars).map _ = _
    rw [unsignedDecimal?_chars]
    rfl

/-- What is read as an exponent is one, or nothing. -/
theorem exists_exponent {cs : List Char} (h : (Number.exponentPart? cs).isSome = true) :
    ∃ x?, cs = exponentChars x? := by
  have hsigned (mark : Char) (sign : Sign) (digits : List Char) (negative : Bool)
      (hmark : (mark == 'e' || mark == 'E') = true)
      (h : (if (digits.isEmpty || !digits.all Number.isDigit) = true then none
        else some (if negative then -(Number.digitsValue 0 digits : Int)
          else Number.digitsValue 0 digits)).isSome = true) :
      ∃ x?, mark :: (sign.chars ++ digits) = exponentChars x? := by
    split at h
    · cases h
    · next hdigits =>
      rw [Bool.not_eq_true, Bool.or_eq_false_iff, Bool.not_eq_false', List.all_eq_true,
        List.isEmpty_eq_false_iff] at hdigits
      rw [Bool.or_eq_true, beq_iff_eq, beq_iff_eq] at hmark
      exact ⟨some ⟨mark, sign, digits, hmark, hdigits.2, hdigits.1⟩, rfl⟩
  cases cs with
  | nil => exact ⟨none, rfl⟩
  | cons mark rest =>
    unfold Number.exponentPart? at h
    dsimp only at h
    split at h
    · next hmark =>
      split at h
      · exact hsigned mark .minus _ true hmark h
      · exact hsigned mark .plus _ false hmark h
      · exact hsigned mark .absent _ false hmark h
    · cases h

/-- What is read as a decimal literal without a sign is one. -/
theorem exists_unsigned {cs : List Char} (h : (Number.unsignedDecimal? cs).isSome = true) :
    ∃ d : Decimal, cs = d.chars := by
  let whole := cs.takeWhile Number.isDigit
  have hdigits (cs : List Char) : ∀ c ∈ cs.takeWhile Number.isDigit, Number.isDigit c = true :=
    fun c hc => List.mem_takeWhile_imp hc
  have hread (places : Option (List Char)) (afterPlaces : List Char) (value : Int → Float)
      (hplaces : ∀ c ∈ places.getD [], Number.isDigit c = true)
      (hsplit : cs = whole ++ (placesChars places ++ afterPlaces))
      (h : (if (whole.isEmpty && (places.getD []).isEmpty) = true then none
        else (Number.exponentPart? afterPlaces).map value).isSome = true) :
      ∃ d : Decimal, cs = d.chars := by
    split at h
    · cases h
    · next hne =>
      rw [Option.isSome_map] at h
      obtain ⟨x?, rfl⟩ := exists_exponent h
      rw [Bool.not_eq_true, Bool.and_eq_false_iff, List.isEmpty_eq_false_iff,
        List.isEmpty_eq_false_iff] at hne
      exact ⟨⟨whole, places, x?, hdigits cs, hplaces, hne⟩, hsplit⟩
  have hsplit : cs = whole ++ cs.dropWhile Number.isDigit := List.takeWhile_append_dropWhile.symm
  unfold Number.unsignedDecimal? at h
  dsimp only at h
  generalize cs.dropWhile Number.isDigit = afterWhole at h hsplit
  split at h
  · next rest =>
    refine hread (some (rest.takeWhile Number.isDigit)) _ _ (hdigits rest) ?_ h
    rw [placesChars, List.cons_append, List.takeWhile_append_dropWhile]
    exact hsplit
  · exact hread none _ _ (fun c hc => by cases hc) hsplit h

/-- A text is read as a decimal number exactly when it is a literal with a sign or none. -/
theorem isSome_decimal?_iff {cs : List Char} :
    (Number.decimal? cs).isSome = true ↔
      ∃ (sign : Sign) (d : Decimal), cs = sign.chars ++ d.chars := by
  constructor
  · intro h
    unfold Number.decimal? at h
    split at h
    · rw [Option.isSome_map] at h
      obtain ⟨d, rfl⟩ := exists_unsigned h
      exact ⟨.minus, d, rfl⟩
    · obtain ⟨d, rfl⟩ := exists_unsigned h
      exact ⟨.plus, d, rfl⟩
    · obtain ⟨d, rfl⟩ := exists_unsigned h
      exact ⟨.absent, d, rfl⟩
  · rintro ⟨sign, d, rfl⟩
    rw [decimal?_signed]
    rfl

theorem isNaN_signed (sign : Sign) (d : Decimal) : Number.isNaN (sign.apply d.value) = false := by
  obtain ⟨negative, heq⟩ := sign.eq_withSign d.value
  rw [heq]
  exact (Number.IsMagnitude.ofDecimal ..).isNaN_withSign negative

/-! ## 2. Hexadecimal literals -/

/-- Hexadecimal digits, any number of them but none. -/
structure IsHexText (digits : List Char) : Prop where
  isHexDigit : ∀ c ∈ digits, isHexDigit c = true
  ne_nil : digits ≠ []

/-- The greatest magnitude that fits behind a sign. -/
def hexLimit : Sign → Nat
  | .minus => maxHex + 1
  | .absent | .plus => maxHex

/-- A sign is no hexadecimal digit. -/
theorem IsHexText.ne_sign {digits : List Char} (h : IsHexText digits) (rest : List Char) :
    digits ≠ '-' :: rest ∧ digits ≠ '+' :: rest := by
  constructor
  · rintro rfl
    cases h.isHexDigit '-' (.head _)
  · rintro rfl
    cases h.isHexDigit '+' (.head _)

theorem IsHexText.isEmpty_or {digits : List Char} (h : IsHexText digits) :
    (digits.isEmpty || !digits.all Snippet.isHexDigit) = false := by
  rw [List.isEmpty_eq_false_iff.mpr h.ne_nil, List.all_eq_true.mpr h.isHexDigit]
  rfl

/-- Behind the mark a number is read from digits that fit, with a sign before them or not. -/
theorem isNaN_hexNumber_iff {cs : List Char} : Number.isNaN (hexNumber cs) = false ↔
    ∃ (sign : Sign) (digits : List Char), cs = sign.chars ++ digits ∧ IsHexText digits ∧
      hexOf digits ≤ hexLimit sign := by
  have hnan : ¬Number.isNaN Number.nan = false := by decide
  have hread (limit : Nat) (n : Int) (digits : List Char) : Number.isNaN
      (if (digits.isEmpty || !digits.all isHexDigit) = true then Number.nan
      else if limit < hexValue (.ofList digits) then Number.nan else Number.ofInt n) = false ↔
      IsHexText digits ∧ hexOf digits ≤ limit := by
    rw [hexValue, String.toList_ofList]
    split
    · next htest =>
      refine iff_of_false hnan fun h => ?_
      rw [h.1.isEmpty_or] at htest
      cases htest
    · next htest =>
      rw [Bool.not_eq_true, Bool.or_eq_false_iff, Bool.not_eq_false', List.all_eq_true,
        List.isEmpty_eq_false_iff] at htest
      split
      · next hlarge => exact iff_of_false hnan fun h => hlarge.not_ge h.2
      · next hsmall =>
        refine iff_of_true ?_ ⟨⟨htest.2, htest.1⟩, not_lt.mp hsmall⟩
        exact (Number.IsMagnitude.ofFraction ..).isNaN_withSign _
  constructor
  · intro h
    unfold hexNumber at h
    dsimp only at h
    split at h
    · exact ⟨.minus, _, rfl, (hread _ _ _).mp h⟩
    · exact ⟨.plus, _, rfl, (hread _ _ _).mp h⟩
    · exact ⟨.absent, _, rfl, (hread _ _ _).mp h⟩
  · rintro ⟨sign, digits, rfl, h⟩
    cases sign with
    | minus => exact (hread (maxHex + 1) _ digits).mpr h
    | plus => exact (hread maxHex _ digits).mpr h
    | absent =>
      unfold hexNumber
      dsimp only [Sign.chars, List.nil_append]
      split
      · exact absurd rfl (h.1.ne_sign _).1
      · exact absurd rfl (h.1.ne_sign _).2
      · exact (hread maxHex _ digits).mpr h

/-- Digits without a sign are a number when they fit. -/
theorem isNaN_hexNumber_of_isHexText {digits : List Char} (h : IsHexText digits) :
    Number.isNaN (hexNumber digits) = false ↔ hexOf digits ≤ maxHex := by
  rw [isNaN_hexNumber_iff]
  constructor
  · rintro ⟨sign, rest, rfl, -, hfits⟩
    cases sign with
    | absent => exact hfits
    | plus => exact absurd rfl (h.ne_sign rest).2
    | minus => exact absurd rfl (h.ne_sign rest).1
  · exact fun hfits => ⟨.absent, digits, rfl, h, hfits⟩

/-! ## 3. Which texts are numbers -/

/-- The texts that write a number. -/
inductive IsNumeralText : List Char → Prop
  | infinity (sign : Sign) : IsNumeralText (sign.chars ++ "Infinity".toList)
  | hex {mark : Char} {digits : List Char} (isMark : mark = 'x' ∨ mark = 'X')
    (isHexText : IsHexText digits) : IsNumeralText ('0' :: mark :: digits)
  | decimal (sign : Sign) (d : Decimal) : IsNumeralText (sign.chars ++ d.chars)

/-- Hexadecimal literals that do not fit. -/
inductive IsLongHex : List Char → Prop
  | intro {mark : Char} {digits : List Char} (isMark : mark = 'x' ∨ mark = 'X')
    (isHexText : IsHexText digits) (long : maxHex < hexOf digits) :
    IsLongHex ('0' :: mark :: digits)

/-- What would be a hexadecimal literal that fits but for the sign behind its mark. -/
inductive IsSignedHex : List Char → Prop
  | intro {mark : Char} {sign : Sign} {digits : List Char} (isMark : mark = 'x' ∨ mark = 'X')
    (isSigned : sign ≠ .absent) (isHexText : IsHexText digits)
    (fits : hexOf digits ≤ hexLimit sign) : IsSignedHex ('0' :: mark :: (sign.chars ++ digits))

section Marked

variable {mark : Char} {rest : List Char} (hmark : mark = 'x' ∨ mark = 'X')
include hmark

omit hmark in
theorem marked_ne_infinity (sign : Sign) :
    '0' :: mark :: rest ≠ sign.chars ++ "Infinity".toList := by
  cases sign <;> exact fun h => by cases h

/-- No decimal literal begins like a hexadecimal one. -/
theorem marked_ne_decimal (sign : Sign) (d : Decimal) :
    '0' :: mark :: rest ≠ sign.chars ++ d.chars := by
  intro h
  have hd : '0' :: mark :: rest = d.chars := by
    cases sign with
    | absent => exact h
    | plus | minus => cases h
  have hmarked := d.isHexMark_eq_false mark (by rw [← hd]; exact .tail _ (.head _))
  rcases hmark with rfl | rfl <;> cases hmarked

theorem isNumeralText_marked : IsNumeralText ('0' :: mark :: rest) ↔ IsHexText rest := by
  refine ⟨fun h => ?_, .hex hmark⟩
  generalize hcs : '0' :: mark :: rest = cs at h
  cases h with
  | infinity sign => exact absurd hcs (marked_ne_infinity sign)
  | hex _ h =>
    obtain ⟨-, htail⟩ := List.cons.inj hcs
    obtain ⟨-, rfl⟩ := List.cons.inj htail
    exact h
  | decimal sign d => exact absurd hcs (marked_ne_decimal hmark sign d)

theorem isLongHex_marked :
    IsLongHex ('0' :: mark :: rest) ↔ IsHexText rest ∧ maxHex < hexOf rest := by
  constructor
  · rintro ⟨-, h, hlong⟩
    exact ⟨h, hlong⟩
  · rintro ⟨h, hlong⟩
    exact .intro hmark h hlong

theorem isSignedHex_marked : IsSignedHex ('0' :: mark :: rest) ↔
    ∃ (sign : Sign) (digits : List Char), sign ≠ .absent ∧ rest = sign.chars ++ digits ∧
      IsHexText digits ∧ hexOf digits ≤ hexLimit sign := by
  constructor
  · intro h
    generalize hcs : '0' :: mark :: rest = cs at h
    obtain ⟨-, hsigned, h, hfits⟩ := h
    obtain ⟨-, htail⟩ := List.cons.inj hcs
    exact ⟨_, _, hsigned, (List.cons.inj htail).2, h, hfits⟩
  · rintro ⟨sign, digits, hsigned, rfl, h, hfits⟩
    exact .intro hmark hsigned h hfits

theorem textNumber_marked {s : String} (h : (trim s).toList = '0' :: mark :: rest) :
    textNumber s = hexNumber rest := by
  unfold textNumber
  rw [h]
  rcases hmark with rfl | rfl <;> rfl

end Marked

/-- Characters begin like a hexadecimal literal, or not. -/
theorem marked_or_unmarked (cs : List Char) :
    (∃ mark rest, (mark = 'x' ∨ mark = 'X') ∧ cs = '0' :: mark :: rest) ∨
      ∀ mark rest, mark = 'x' ∨ mark = 'X' → cs ≠ '0' :: mark :: rest := by
  by_cases h : ∃ mark rest, (mark = 'x' ∨ mark = 'X') ∧ cs = '0' :: mark :: rest
  · exact .inl h
  · exact .inr fun mark rest hmark hcs => h ⟨mark, rest, hmark, hcs⟩

/-- A text that is not blank and does not begin like a hexadecimal literal is an infinity, or a
number exactly when it is a decimal literal. -/
theorem textNumber_unmarked {s : String} (hne : (trim s).toList ≠ [])
    (hmark : ∀ mark rest, mark = 'x' ∨ mark = 'X' → (trim s).toList ≠ '0' :: mark :: rest) :
    (∃ sign : Sign, (trim s).toList = sign.chars ++ "Infinity".toList ∧
        textNumber s = sign.apply Number.infinity) ∨
      ((∀ sign : Sign, (trim s).toList ≠ sign.chars ++ "Infinity".toList) ∧
        textNumber s = (Number.decimal? (trim s).toList).getD Number.nan) := by
  unfold textNumber
  generalize (trim s).toList = cs at hne hmark
  split
  · exact absurd rfl hne
  · exact absurd rfl (hmark _ _ (.inl rfl))
  · exact absurd rfl (hmark _ _ (.inr rfl))
  · split
    · next hcs =>
      rw [Bool.or_eq_true, beq_iff_eq, beq_iff_eq] at hcs
      rcases hcs with rfl | rfl
      · exact .inl ⟨.absent, rfl, rfl⟩
      · exact .inl ⟨.plus, rfl, rfl⟩
    · next hcs =>
      rw [Bool.or_eq_true, beq_iff_eq, beq_iff_eq, not_or] at hcs
      split
      · next hminus => exact .inl ⟨.minus, eq_of_beq hminus, rfl⟩
      · next hminus =>
        rw [beq_iff_eq] at hminus
        right
        refine ⟨fun sign => ?_, rfl⟩
        cases sign with
        | absent => exact hcs.1
        | plus => exact hcs.2
        | minus => exact hminus

/-- A text that does not begin like a hexadecimal literal is a number exactly when it writes one. -/
theorem isNaN_unmarked_iff {s : String} (hne : (trim s).toList ≠ [])
    (hmark : ∀ mark rest, mark = 'x' ∨ mark = 'X' → (trim s).toList ≠ '0' :: mark :: rest) :
    Number.isNaN (textNumber s) = false ↔ IsNumeralText (trim s).toList := by
  rcases textNumber_unmarked hne hmark with ⟨sign, hcs, hvalue⟩ | ⟨hinfinity, hvalue⟩
  · rw [hcs, hvalue]
    refine iff_of_true ?_ (.infinity sign)
    obtain ⟨negative, heq⟩ := sign.eq_withSign Number.infinity
    rw [heq]
    exact Number.IsMagnitude.infinity.isNaN_withSign negative
  · rw [hvalue]
    cases hread : Number.decimal? (trim s).toList with
    | some x =>
      obtain ⟨sign, d, hcs⟩ := isSome_decimal?_iff.mp (Option.isSome_of_eq_some hread)
      rw [hcs, decimal?_signed] at hread
      obtain rfl := Option.some.inj hread
      rw [hcs]
      exact iff_of_true (isNaN_signed sign d) (.decimal sign d)
    | none =>
      refine iff_of_false (show ¬Number.isNaN Number.nan = false by decide) fun h => ?_
      generalize (trim s).toList = cs at hmark hinfinity hread h
      cases h with
      | infinity sign => exact hinfinity sign rfl
      | hex isMark => exact hmark _ _ isMark rfl
      | decimal sign d =>
        rw [decimal?_signed] at hread
        cases hread

/-- A text that begins like a hexadecimal literal is a number exactly when it writes one, unless it
does not fit or has a sign behind its mark. -/
theorem isNaN_marked_iff {s : String} {mark : Char} {rest : List Char}
    (hmark : mark = 'x' ∨ mark = 'X') (hcs : (trim s).toList = '0' :: mark :: rest) :
    (Number.isNaN (textNumber s) = false ↔ IsNumeralText (trim s).toList) ↔
      ¬(IsLongHex (trim s).toList ∨ IsSignedHex (trim s).toList) := by
  rw [textNumber_marked hmark hcs, hcs, isNumeralText_marked hmark, isLongHex_marked hmark,
    isSignedHex_marked hmark]
  by_cases h : IsHexText rest
  · have hunsigned : ¬∃ (sign : Sign) (digits : List Char), sign ≠ .absent ∧
        rest = sign.chars ++ digits ∧ IsHexText digits ∧ hexOf digits ≤ hexLimit sign := by
      rintro ⟨sign, digits, hsigned, rfl, -⟩
      cases sign with
      | absent => exact hsigned rfl
      | plus => exact absurd rfl (h.ne_sign digits).2
      | minus => exact absurd rfl (h.ne_sign digits).1
    rw [isNaN_hexNumber_of_isHexText h, iff_true_right h, or_iff_left hunsigned,
      and_iff_right h, not_lt]
  · rw [iff_false_right h, or_iff_right fun hlong => h hlong.1, isNaN_hexNumber_iff, not_iff_not]
    constructor
    · rintro ⟨sign, digits, rfl, hdigits, hfits⟩
      refine ⟨sign, digits, ?_, rfl, hdigits, hfits⟩
      rintro rfl
      exact h hdigits
    · rintro ⟨sign, digits, -, hrest⟩
      exact ⟨sign, digits, hrest⟩

/-- A text that is not blank is a number exactly when it writes one, unless it is a hexadecimal
literal that does not fit or one with a sign behind its mark. -/
theorem isNaN_textNumber_iff {s : String} (hne : trim s ≠ "") :
    (Number.isNaN (textNumber s) = false ↔ IsNumeralText (trim s).toList) ↔
      ¬(IsLongHex (trim s).toList ∨ IsSignedHex (trim s).toList) := by
  rcases marked_or_unmarked (trim s).toList with ⟨mark, rest, hmark, hcs⟩ | hunmarked
  · exact isNaN_marked_iff hmark hcs
  · have hnil : (trim s).toList ≠ [] := fun h => hne (String.toList_eq_nil_iff.mp h)
    refine iff_of_true (isNaN_unmarked_iff hnil hunmarked) ?_
    generalize (trim s).toList = cs at hunmarked
    rintro (⟨hmark, -⟩ | ⟨hmark, -⟩)
    · exact hunmarked _ _ hmark rfl
    · exact hunmarked _ _ hmark rfl

theorem isNaN_textNumber_iff_halfText : trim " .5 " ≠ "" ∧
    (Number.isNaN (textNumber " .5 ") = false ↔ IsNumeralText (trim " .5 ").toList) := by
  have hne : trim " .5 " ≠ "" := by decide
  have hchars : (trim " .5 ").toList = ['.', '5'] := by decide
  refine ⟨hne, (isNaN_textNumber_iff hne).mpr ?_⟩
  rw [hchars]
  rintro (h | h) <;> cases h

/-- A sign behind the mark is taken for a part of the number, and `64` bits are too many. -/
theorem textNumber_misreads :
    (trim "0x+5" ≠ "" ∧ Number.isNaN (textNumber "0x+5") = false ∧
      ¬IsNumeralText (trim "0x+5").toList) ∧
    (IsNumeralText (trim "0xffffffffffffffff").toList ∧
      Number.isNaN (textNumber "0xffffffffffffffff") = true) := by
  have hsigned : (trim "0x+5").toList = ['0', 'x', '+', '5'] := by decide
  have hlong : (trim "0xffffffffffffffff").toList = '0' :: 'x' :: List.replicate 16 'f' := by decide
  refine ⟨⟨by decide, ?_, ?_⟩, ?_, ?_⟩
  · rw [textNumber_marked (.inl rfl) hsigned]
    decide
  · rw [hsigned, isNumeralText_marked (.inl rfl)]
    exact fun h => absurd rfl (h.ne_sign ['5']).2
  · rw [hlong, isNumeralText_marked (.inl rfl)]
    exact ⟨fun c hc => by rw [List.eq_of_mem_replicate hc]; rfl, by decide⟩
  · rw [textNumber_marked (.inl rfl) hlong]
    decide

end TraceViewer.Snippet
