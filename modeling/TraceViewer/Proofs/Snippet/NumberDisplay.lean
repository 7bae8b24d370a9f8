import TraceViewer.Proofs.Snippet.NumberTexts

/-!
# Numbers shown and read back

Every number is shown as a decimal literal with its sign, or as an infinity, and what is shown is
read back as this number.  Only the sign of negative zero is not shown.
-/

namespace TraceViewer.Snippet

open TraceViewer.Text

/-- Equal numbers, or both not a number. -/
def SameNumber (x y : Float) : Prop :=
  (x == y) = true ∨ (Number.isNaN x = true ∧ Number.isNaN y = true)

/-! ## 1. Signed literals -/

theorem Sign.isBlank_eq_false (sign : Sign) : ∀ c ∈ sign.chars, isBlank c = false := by
  cases sign with
  | absent => exact fun c hc => by cases hc
  | plus | minus =>
    intro c hc
    obtain rfl := List.mem_singleton.mp hc
    rfl

/-- No infinity is written like a decimal literal. -/
theorem decimal_ne_infinity (sign sign' : Sign) (d : Decimal) :
    sign.chars ++ d.chars ≠ sign'.chars ++ "Infinity".toList := by
  intro h
  have hmem : 'I' ∈ sign.chars ++ d.chars := by
    rw [h]
    exact List.mem_append_right _ (.head _)
  rcases List.mem_append.mp hmem with hmem | hmem
  · cases sign with
    | absent => cases hmem
    | plus | minus => cases List.mem_singleton.mp hmem
  · exact absurd (d.eq_false_of_mem (f := (· == 'I')) (by decide) 'I' hmem) (by decide)

/-- A decimal literal is read as its value. -/
theorem textNumber_signed {s : String} (sign : Sign) {d : Decimal}
    (h : s.toList = sign.chars ++ d.chars) : textNumber s = sign.apply d.value := by
  obtain ⟨c, cs, hstart, -⟩ := d.start
  have htrim : trim s = s := trim_eq_self fun c hc => by
    rw [h] at hc
    rcases List.mem_append.mp hc with hc | hc
    · exact sign.isBlank_eq_false c hc
    · exact d.eq_false_of_mem (by decide) c hc
  rw [← htrim] at h
  have hne : (trim s).toList ≠ [] := by
    rw [h, hstart]
    exact List.append_ne_nil_of_right_ne_nil _ (List.cons_ne_nil c cs)
  have hmark (mark : Char) (rest : List Char) (hmark : mark = 'x' ∨ mark = 'X') :
      (trim s).toList ≠ '0' :: mark :: rest := by
    rw [h]
    exact (marked_ne_decimal hmark sign d).symm
  rcases textNumber_unmarked hne hmark with ⟨sign', hinfinity, -⟩ | ⟨-, hvalue⟩
  · exact absurd (h.symm.trans hinfinity) (decimal_ne_infinity sign sign' d)
  · rw [hvalue, h, decimal?_signed]
    rfl

/-! ## 2. Texts of digits -/

/-- A text that is a literal of these digits, so many of them behind the point. -/
def Writes (text : String) (digits places : Nat) : Prop :=
  ∃ d : Decimal, text.toList = d.chars ∧ d.value = Number.ofDecimal digits (-(places : Int))

theorem Writes.textNumber_eq {text : String} {digits places : Nat} (h : Writes text digits places)
    (negative : Bool) :
    textNumber (if negative then "-" ++ text else text) =
      Number.withSign negative (Number.ofDecimal digits (-(places : Int))) := by
  obtain ⟨d, hchars, hvalue⟩ := h
  rw [← hvalue]
  cases negative with
  | false => exact textNumber_signed .absent hchars
  | true =>
    have hsigned : ("-" ++ text).toList = Sign.minus.chars ++ d.chars := by
      rw [String.toList_append, hchars]
      rfl
    exact textNumber_signed .minus hsigned

theorem digitsValue_toDigits (n : Nat) : Number.digitsValue 0 (Nat.toDigits 10 n) = n := by
  rw [Number.digitsValue_eq, Nat.ofDigitChars_toDigits (by decide) (by decide)]

theorem writes_natText (n : Nat) : Writes (Number.natText n) n 0 := by
  refine ⟨⟨Nat.toDigits 10 n, none, none, fun c => Number.isDigit_of_mem_toDigits,
    List.forall_mem_nil _, .inl Nat.toDigits_ne_nil⟩, ?_, ?_⟩
  · rw [Number.natText, String.toList_ofList]
    exact (List.append_nil _).symm
  · unfold Decimal.value
    dsimp only [Option.getD_none, Option.map_none]
    rw [List.append_nil, digitsValue_toDigits]
    rfl

/-- Zeros at the start do not count. -/
theorem digitsValue_replicate (k : Nat) (ds : List Char) :
    Number.digitsValue 0 (List.replicate k '0' ++ ds) = Number.digitsValue 0 ds := by
  induction k with
  | zero => rfl
  | succ k ih => exact ih

theorem writes_placed (units : Nat) {places : Nat} (hplaces : places ≠ 0) :
    Writes (Number.placed units places) units places := by
  let padded :=
    List.replicate (places + 1 - (Nat.toDigits 10 units).length) '0' ++ Nat.toDigits 10 units
  let split := padded.length - places
  have hlength : padded.length =
      places + 1 - (Nat.toDigits 10 units).length + (Nat.toDigits 10 units).length := by
    rw [List.length_append, List.length_replicate]
  have hdigits : ∀ c ∈ padded, Number.isDigit c = true := by
    intro c hc
    rcases List.mem_append.mp hc with hc | hc
    · rw [List.eq_of_mem_replicate hc]
      rfl
    · exact Number.isDigit_of_mem_toDigits hc
  have hwhole : padded.take split ≠ [] := by
    rw [← List.length_pos_iff, List.length_take]
    omega
  refine ⟨⟨padded.take split, some (padded.drop split), none,
    fun c hc => hdigits c (List.mem_of_mem_take hc),
    fun c hc => hdigits c (List.mem_of_mem_drop hc), .inl hwhole⟩, ?_, ?_⟩
  · unfold Number.placed
    dsimp only
    rw [if_neg hplaces, String.toList_ofList]
    show _ = padded.take split ++ ('.' :: padded.drop split ++ [])
    rw [List.append_nil]
  · have hvalue : Number.digitsValue 0 (padded.take split ++ padded.drop split) = units := by
      rw [List.take_append_drop, digitsValue_replicate, digitsValue_toDigits]
    have hcount : (padded.drop split).length = places := by
      rw [List.length_drop]
      omega
    unfold Decimal.value
    dsimp only [Option.getD_some, Option.getD_none, Option.map_none]
    rw [hvalue, hcount, Int.zero_sub]

/-- A decimal is written with its value. -/
theorem writes_positional {d : Number.Decimal} (hdigits : d.digits ≠ 0) (hexp : -400 ≤ d.exponent) :
    ∃ digits places, Writes d.positional digits places ∧ digits ≠ 0 ∧ places ≤ 400 ∧
      (digits / (10 ^ places : Nat) : ℚ) = d.value := by
  unfold Number.Decimal.positional Number.Decimal.value
  split
  · next hge =>
    obtain ⟨k, hk⟩ := Int.eq_ofNat_of_zero_le hge
    have hpower : Number.powerOf 10 d.exponent ≠ 0 := (Number.powerOf_pos (by decide) _).ne'
    refine ⟨_, 0, writes_natText _, Nat.mul_ne_zero hdigits hpower, Nat.zero_le _, ?_⟩
    rw [hk, Number.powerOf_natCast, zpow_natCast]
    push_cast
    exact div_one _
  · next hlt =>
    have hk : d.exponent = -(d.exponent.natAbs : Int) := by omega
    refine ⟨_, _, writes_placed d.digits (by omega), hdigits, by omega, ?_⟩
    rw [hk, Int.natAbs_neg, Int.natAbs_natCast, zpow_neg, zpow_natCast]
    push_cast
    rfl

/-! ## 3. The text of a number -/

section Finite

variable {x : Float} {b : Number.Binary} (h : Number.Binary.ofFloat? x = some b)
include h

/-- What writes a decimal in the interval around a number is read as this number. -/
theorem textNumber_of_covers {text : String} {digits places : Nat}
    (hwrites : Writes text digits places) (hdigits : digits ≠ 0) (hplaces : places ≤ 400)
    (hcovers : b.Covers (digits / (10 ^ places : Nat))) :
    textNumber (if Number.isNegative x then "-" ++ text else text) = x := by
  rw [hwrites.textNumber_eq, Number.ofDecimal_of_covers (Number.Binary.isCanonical_of_ofFloat? h)
    hdigits hplaces hcovers]
  exact Number.withSign_bits h

theorem numberText_zero (hm : b.significand = 0) : numberText x = "0" ∧ (0 == x) = true := by
  have hwhole := Number.Binary.whole_of_ofFloat? h hm
  have hint : Number.toInt x = 0 := by
    unfold Number.toInt
    rw [hwhole.2]
    exact ite_self 0
  constructor
  · have hfinite : Number.isFinite x = true := Option.isSome_of_eq_some h
    unfold numberText
    rw [Number.isNaN_of_ofFloat? h, hfinite, hwhole.1, hwhole.2, hint]
    rfl
  · have hbits : b.bits = 0 := by
      unfold Number.Binary.bits
      rw [hm]
      rfl
    rw [← Number.withSign_bits h, hbits]
    cases Number.isNegative x <;> decide

variable (hm : b.significand ≠ 0)
include hm

/-- A whole number is shown with its digits. -/
theorem textNumber_intText (hwhole : Number.isWhole x = true) :
    textNumber (Number.intText (Number.toInt x)) = x := by
  have hproduct : b.significand * Number.powerOf 2 b.exponent =
      Number.wholePart x * Number.powerOf 2 (-b.exponent) := by
    unfold Number.isWhole at hwhole
    unfold Number.wholePart
    rw [h] at hwhole ⊢
    exact (Nat.div_mul_cancel (Nat.dvd_of_mod_eq_zero (eq_of_beq hwhole))).symm
  have hscale : ((Number.powerOf 2 (-b.exponent) : Nat) : ℚ) ≠ 0 :=
    mod_cast (Number.powerOf_pos two_pos _).ne'
  have hvalue : (Number.wholePart x / (10 ^ 0 : Nat) : ℚ) = b.value := by
    have hpower := Number.powerOf_div 2 b.exponent
    rw [Nat.cast_ofNat] at hpower
    rw [Number.Binary.value, ← hpower, ← mul_div_assoc, eq_div_iff hscale, pow_zero, Nat.cast_one,
      div_one]
    exact mod_cast hproduct.symm
  have hne : Number.wholePart x ≠ 0 := by
    intro hzero
    rw [hzero, Nat.zero_mul] at hproduct
    exact Nat.mul_ne_zero hm (Number.powerOf_pos two_pos _).ne' hproduct
  have htext : Number.intText (Number.toInt x) =
      if Number.isNegative x then "-" ++ Number.natText (Number.wholePart x)
      else Number.natText (Number.wholePart x) := by
    unfold Number.intText Number.toInt
    cases Number.isNegative x with
    | false => exact if_neg (by simp)
    | true =>
      rw [if_pos rfl, if_pos rfl, if_pos (by omega), Int.natAbs_neg, Int.natAbs_natCast]
  rw [htext]
  apply textNumber_of_covers h (writes_natText _) hne (Nat.zero_le _)
  rw [hvalue]
  exact Number.Binary.covers_value

/-- Another number is shown as its shortest decimal. -/
theorem textNumber_plainText : textNumber (Number.plainText x) = x := by
  obtain ⟨d, hd, hdigits, hexp, hcovers⟩ := Number.shortest?_spec .up h hm
  obtain ⟨digits, places, hwrites, hne, hplaces, hvalue⟩ := writes_positional hdigits hexp
  have hfinite : Number.isFinite x = true := Option.isSome_of_eq_some h
  unfold Number.plainText
  rw [Number.isNaN_of_ofFloat? h, hfinite, hd]
  apply textNumber_of_covers h hwrites hne hplaces
  rw [hvalue]
  exact hcovers

end Finite

theorem textNumber_infinityText (negative : Bool) :
    textNumber (if negative then "-Infinity" else "Infinity") =
      Number.withSign negative Number.infinity := by
  cases negative <;> decide

/-- What a number shows as is read back as this number. -/
theorem textNumber_numberText (x : Float) : SameNumber (textNumber (numberText x)) x := by
  cases hnan : Number.isNaN x with
  | true =>
    refine .inr ⟨?_, hnan⟩
    have hshown : numberText x = "NaN" := by
      unfold numberText
      rw [hnan]
      rfl
    rw [hshown]
    decide
  | false =>
    have hself : (x == x) = true := Float.beq_self_iff.mpr (Number.isNaN_eq_false_iff.mp hnan)
    left
    cases h : Number.Binary.ofFloat? x with
    | none =>
      have hfinite : Number.isFinite x = false := Option.isSome_eq_false_iff.mpr (by rw [h]; rfl)
      have hread : textNumber (numberText x) = x := by
        unfold numberText
        rw [hnan, hfinite]
        exact (textNumber_infinityText _).trans (Number.withSign_infinity hfinite hnan)
      rw [hread]
      exact hself
    | some b =>
      by_cases hm : b.significand = 0
      · obtain ⟨htext, hzero⟩ := numberText_zero h hm
        have hread : textNumber "0" = 0 := by decide
        rw [htext, hread]
        exact hzero
      · have hfinite : Number.isFinite x = true := Option.isSome_of_eq_some h
        have hshown : numberText x =
            if Number.isWhole x && Number.wholePart x < exactBelow then
              Number.intText (Number.toInt x)
            else Number.plainText x := by
          unfold numberText
          rw [hnan, hfinite]
          rfl
        have hread : textNumber (numberText x) = x := by
          rw [hshown]
          split
          · next hwhole => exact textNumber_intText h hm (Bool.and_eq_true .. |>.mp hwhole).1
          · exact textNumber_plainText h hm
        rw [hread]
        exact hself

end TraceViewer.Snippet
