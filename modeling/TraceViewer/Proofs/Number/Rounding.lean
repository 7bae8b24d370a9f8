import TraceViewer.Proofs.Number.Bits

/-!
# Rounding to the nearest number

Every fraction in the interval around a number, up to half a unit to both sides, is rounded to this
number.
-/

namespace TraceViewer.Number

/-! ## 1. Fractions and powers -/

theorem powerOf_pos {base : Nat} (hbase : 0 < base) (e : Int) : 0 < powerOf base e :=
  Nat.pow_pos hbase

/-- Of a power and the opposite one, one is one, and the other makes up the exponent. -/
theorem powerOf_div (base : Nat) (e : Int) :
    (powerOf base e : ℚ) / powerOf base (-e) = (base : ℚ) ^ e := by
  obtain ⟨k, rfl | rfl⟩ := e.eq_nat_or_neg
  · rw [powerOf_natCast, powerOf_neg, Nat.cast_one, div_one, zpow_natCast, Nat.cast_pow]
  · rw [Int.neg_neg, powerOf_natCast, powerOf_neg, Nat.cast_one, zpow_neg, zpow_natCast,
      Nat.cast_pow, one_div]

theorem mul_powerOf_div {base : Nat} (p q : Nat) (e : Int) :
    ((p * powerOf base (-e) : Nat) : ℚ) / ((q * powerOf base e : Nat) : ℚ) =
      p / q / (base : ℚ) ^ e := by
  have hpower := powerOf_div base (-e)
  rw [Int.neg_neg, zpow_neg] at hpower
  push_cast
  rw [mul_div_mul_comm, hpower, div_eq_mul_inv (p / q : ℚ)]

theorem leadingBit_eq : ((leadingBit : Nat) : ℚ) = 2 ^ (52 : Int) := by
  rw [leadingBit]
  norm_num

section Fraction

variable {p q : Nat} (hp : p ≠ 0) (hq : q ≠ 0)
include hp hq

/-- The binary logarithms of numerator and denominator tell a fraction up to a factor of two. -/
theorem log2_bounds :
    (2 : ℚ) ^ ((p.log2 : Int) - q.log2 - 1) < p / q ∧
      (p / q : ℚ) < 2 ^ ((p.log2 : Int) - q.log2 + 1) := by
  have hp_low : (2 : ℚ) ^ p.log2 ≤ p := mod_cast Nat.log2_self_le hp
  have hp_high : (p : ℚ) < 2 ^ (p.log2 + 1) := mod_cast Nat.lt_log2_self (n := p)
  have hq_low : (2 : ℚ) ^ q.log2 ≤ q := mod_cast Nat.log2_self_le hq
  have hq_high : (q : ℚ) < 2 ^ (q.log2 + 1) := mod_cast Nat.lt_log2_self (n := q)
  have hq_pos : (0 : ℚ) < q := mod_cast Nat.pos_of_ne_zero hq
  constructor
  · rw [lt_div_iff₀ hq_pos]
    calc (2 : ℚ) ^ ((p.log2 : Int) - q.log2 - 1) * q
        < 2 ^ ((p.log2 : Int) - q.log2 - 1) * 2 ^ (q.log2 + 1) := by gcongr
      _ = 2 ^ p.log2 := by
        rw [← zpow_natCast, ← zpow_natCast, ← zpow_add₀ two_ne_zero]
        congr 1
        push_cast
        ring
      _ ≤ p := hp_low
  · rw [div_lt_iff₀ hq_pos]
    calc (p : ℚ) < 2 ^ (p.log2 + 1) := hp_high
      _ = 2 ^ ((p.log2 : Int) - q.log2 + 1) * 2 ^ q.log2 := by
        rw [← zpow_natCast, ← zpow_natCast, ← zpow_add₀ two_ne_zero]
        congr 1
        push_cast
        ring
      _ ≤ 2 ^ ((p.log2 : Int) - q.log2 + 1) * q := by gcongr

/-- Without the limit at the least numbers, the unit makes the significand one of `53` bits. -/
theorem exists_unitExponent :
    ∃ k : Int, unitExponent p q = max k (-1074) ∧ (2 : ℚ) ^ (52 + k) ≤ p / q ∧
      (p / q : ℚ) < 2 ^ (53 + k) := by
  obtain ⟨hlow, hhigh⟩ := log2_bounds hp hq
  let guess : Int := (p.log2 : Int) - q.log2 - 52
  have hpos : (0 : ℚ) < ((q * powerOf 2 guess : Nat) : ℚ) :=
    mod_cast Nat.mul_pos (Nat.pos_of_ne_zero hq) (powerOf_pos two_pos guess)
  have hguess : p * powerOf 2 (-guess) < leadingBit * q * powerOf 2 guess ↔
      (p / q : ℚ) < 2 ^ (52 + guess) := by
    rw [mul_assoc, ← Nat.cast_lt (α := ℚ), Nat.cast_mul leadingBit, ← div_lt_iff₀ hpos,
      mul_powerOf_div, Nat.cast_ofNat, div_lt_iff₀ (by positivity), zpow_add₀ two_ne_zero,
      leadingBit_eq]
  have hexp : unitExponent p q =
      max (if p * powerOf 2 (-guess) < leadingBit * q * powerOf 2 guess then guess - 1 else guess)
        (-1074) := rfl
  by_cases hless : (p / q : ℚ) < 2 ^ (52 + guess)
  · refine ⟨guess - 1, ?_, ?_, ?_⟩
    · rw [hexp, if_pos (hguess.mpr hless)]
    · have heq : 52 + (guess - 1) = (p.log2 : Int) - q.log2 - 1 := by omega
      rw [heq]
      exact hlow.le
    · have heq : 53 + (guess - 1) = 52 + guess := by omega
      rw [heq]
      exact hless
  · refine ⟨guess, ?_, not_lt.mp hless, ?_⟩
    · rw [hexp, if_neg (fun h => hless (hguess.mp h))]
    · have heq : 53 + guess = (p.log2 : Int) - q.log2 + 1 := by omega
      rw [heq]
      exact hhigh

/-- The unit of a fraction is the one for which the significand has `53` bits, or fewer at the least
numbers. -/
theorem unitExponent_eq {e : Int} (hmin : -1074 ≤ e)
    (hlow : e = -1074 ∨ (2 : ℚ) ^ (52 + e) ≤ p / q) (hhigh : (p / q : ℚ) < 2 ^ (53 + e)) :
    unitExponent p q = e := by
  obtain ⟨k, hk, hk_low, hk_high⟩ := exists_unitExponent hp hq
  have hle : k ≤ e := by
    have hpow : (2 : ℚ) ^ (52 + k) < 2 ^ (53 + e) := hk_low.trans_lt hhigh
    rw [zpow_lt_zpow_iff_right₀ one_lt_two] at hpow
    omega
  rcases hlow with rfl | hlow
  · omega
  · have hpow : (2 : ℚ) ^ (52 + e) < 2 ^ (53 + k) := hlow.trans_lt hk_high
    rw [zpow_lt_zpow_iff_right₀ one_lt_two] at hpow
    omega

end Fraction

/-! ## 2. Rounding to whole numbers -/

/-- A fraction within a half of a whole number is rounded to it; at a half it has to be even. -/
theorem divNearestEven_eq {a b n : Nat} (hlow : 2 * (n * b) ≤ 2 * a + b)
    (hhigh : 2 * a ≤ 2 * (n * b) + b)
    (htie : 2 * (n * b) = 2 * a + b ∨ 2 * a = 2 * (n * b) + b → n % 2 = 0) (hb : 0 < b) :
    divNearestEven a b = n := by
  have hdiv := Nat.div_add_mod a b
  have hmod : a % b < b := Nat.mod_lt a hb
  unfold divNearestEven
  dsimp only
  generalize a / b = quotient at hdiv ⊢
  generalize a % b = remainder at hdiv hmod ⊢
  have hbetween : quotient = n ∨ quotient + 1 = n := by
    have hle : quotient ≤ n := by
      by_contra h
      have hmul : b * (n + 1) ≤ b * quotient := Nat.mul_le_mul_left b (by omega)
      have hexpand : b * (n + 1) = n * b + b := by ring
      omega
    have hge : n ≤ quotient + 1 := by
      by_contra h
      have hmul : b * (quotient + 2) ≤ b * n := Nat.mul_le_mul_left b (by omega)
      have hexpand : b * (quotient + 2) = b * quotient + 2 * b := by ring
      have hcomm : b * n = n * b := Nat.mul_comm b n
      omega
    omega
  rcases hbetween with rfl | rfl
  · have hcomm : b * quotient = quotient * b := Nat.mul_comm b quotient
    split
    · rfl
    · split
      · omega
      · rw [if_pos (htie (by omega))]
  · have hexpand : (quotient + 1) * b = b * quotient + b := by ring
    split
    · omega
    · split
      · rfl
      · have heven := htie (by omega)
        rw [if_neg (by omega)]

/-- The same for the fraction as a rational number. -/
theorem divNearestEven_of_near {a b n : Nat} (hb : 0 < b) (hlow : (n : ℚ) - 1 / 2 ≤ a / b)
    (hhigh : (a / b : ℚ) ≤ n + 1 / 2)
    (htie : (a / b : ℚ) = n - 1 / 2 ∨ (a / b : ℚ) = n + 1 / 2 → n % 2 = 0) :
    divNearestEven a b = n := by
  have hpos : (0 : ℚ) < b := mod_cast hb
  rw [le_div_iff₀ hpos] at hlow
  rw [div_le_iff₀ hpos] at hhigh
  rw [div_eq_iff hpos.ne', div_eq_iff hpos.ne'] at htie
  apply divNearestEven_eq _ _ _ hb
  · rw [← Nat.cast_le (α := ℚ)]
    push_cast
    linarith
  · rw [← Nat.cast_le (α := ℚ)]
    push_cast
    linarith
  · intro h
    apply htie
    rw [← Nat.cast_inj (R := ℚ), ← Nat.cast_inj (R := ℚ)] at h
    push_cast at h
    rcases h with h | h
    · left
      linarith
    · right
      linarith

/-! ## 3. Numbers taken apart -/

namespace Binary

/-- The magnitude as a rational number. -/
def value (b : Binary) : ℚ := b.significand * 2 ^ b.exponent

/-- The bits of the magnitude. -/
def bits (b : Binary) : Nat :=
  if b.significand < leadingBit then b.significand
  else (b.exponent + 1075).toNat * leadingBit + (b.significand - leadingBit)

/-- What holds of the parts of every finite number: the significand has at most `53` bits, and fewer
only with the least exponent. -/
structure IsCanonical (b : Binary) : Prop where
  significand_lt : b.significand < 2 * leadingBit
  exponent_ge : -1074 ≤ b.exponent
  exponent_le : b.exponent ≤ 971
  least_or_leading : b.exponent = -1074 ∨ leadingBit ≤ b.significand

/-- How far the interval around a number reaches below it, in units of the last place. -/
def below (b : Binary) : ℚ :=
  if b.significand = leadingBit ∧ -1074 < b.exponent then 1 / 4 else 1 / 2

/-- The interval around a number: half a unit in the last place to both sides, but only a quarter
below a power of two, and the ends belong to it when the significand is even. -/
structure Covers (b : Binary) (r : ℚ) : Prop where
  low : (b.significand - b.below) * 2 ^ b.exponent ≤ r
  high : r ≤ (b.significand + 1 / 2) * 2 ^ b.exponent
  closed : r = (b.significand - b.below) * 2 ^ b.exponent ∨
    r = (b.significand + 1 / 2) * 2 ^ b.exponent → b.significand % 2 = 0

variable {b : Binary}

theorem below_pos : 0 < b.below := by
  unfold below
  split <;> norm_num

theorem below_le : b.below ≤ 1 / 2 := by
  unfold below
  split <;> norm_num

/-- Between the ends all is in the interval. -/
theorem covers_of_lt {r : ℚ} (hlow : (b.significand - b.below) * 2 ^ b.exponent < r)
    (hhigh : r < (b.significand + 1 / 2) * 2 ^ b.exponent) : b.Covers r := by
  refine ⟨hlow.le, hhigh.le, ?_⟩
  rintro (heq | heq)
  · exact absurd heq hlow.ne'
  · exact absurd heq hhigh.ne

theorem covers_value : b.Covers b.value := by
  have hpower : (0 : ℚ) < 2 ^ b.exponent := by positivity
  apply covers_of_lt <;> unfold value <;> gcongr
  · linarith [b.below_pos]
  · linarith

theorem covers_iff_of_even {r : ℚ} (h : b.significand % 2 = 0) :
    b.Covers r ↔ (b.significand - b.below) * 2 ^ b.exponent ≤ r ∧
      r ≤ (b.significand + 1 / 2) * 2 ^ b.exponent :=
  ⟨fun hr => ⟨hr.low, hr.high⟩, fun ⟨hlow, hhigh⟩ => ⟨hlow, hhigh, fun _ => h⟩⟩

theorem covers_iff_of_odd {r : ℚ} (h : b.significand % 2 ≠ 0) :
    b.Covers r ↔ (b.significand - b.below) * 2 ^ b.exponent < r ∧
      r < (b.significand + 1 / 2) * 2 ^ b.exponent := by
  refine ⟨fun hr => ⟨?_, ?_⟩, fun ⟨hlow, hhigh⟩ => covers_of_lt hlow hhigh⟩
  · exact lt_of_le_of_ne hr.low fun heq => h (hr.closed (.inl heq.symm))
  · exact lt_of_le_of_ne hr.high fun heq => h (hr.closed (.inr heq))

theorem isCanonical_of_ofFloat? {x : Float} (h : ofFloat? x = some b) : b.IsCanonical := by
  unfold ofFloat? at h
  dsimp only at h
  generalize x.toBits.toNat = bits at h
  split at h
  · cases h
  · split at h
    · obtain rfl := Option.some.inj h
      constructor <;> dsimp only <;> unfold leadingBit at * <;> omega
    · obtain rfl := Option.some.inj h
      constructor <;> dsimp only <;> unfold leadingBit at * <;> omega

/-- A number without a significand is whole, and its whole part is zero. -/
theorem whole_of_ofFloat? {x : Float} (h : ofFloat? x = some b) (hm : b.significand = 0) :
    isWhole x = true ∧ wholePart x = 0 := by
  unfold isWhole wholePart fraction
  rw [h]
  dsimp only
  rw [hm, Nat.zero_mul, Nat.zero_mod, Nat.zero_div]
  exact ⟨rfl, rfl⟩

theorem bits_of_ofFloat? {x : Float} (h : ofFloat? x = some b) :
    b.bits = x.toBits.toNat % signBit := by
  unfold bits
  rcases ofFloat?_cases h with ⟨hbits, hlt, -⟩ | ⟨biased, hexp, hle, -, hbits⟩
  · rw [if_pos hlt, hbits]
  · rw [if_neg hle.not_gt, hbits, hexp]
    congr 2
    omega

namespace IsCanonical

variable (h : b.IsCanonical)
include h

theorem bits_lt : b.bits < 2047 * leadingBit := by
  obtain ⟨hlt, -, hexp, -⟩ := h
  unfold bits
  split <;> unfold leadingBit at * <;> omega

/-- The significand with a half more still has no more than `53` bits. -/
theorem covers_lt {r : ℚ} (hr : b.Covers r) : r < 2 ^ (53 + b.exponent) := by
  have hsignificand : (b.significand : ℚ) + 1 ≤ 2 ^ (53 : Int) := by
    have hle : b.significand + 1 ≤ 2 ^ 53 := h.significand_lt
    exact mod_cast hle
  have hpower : (0 : ℚ) < 2 ^ b.exponent := by positivity
  calc r ≤ (b.significand + 1 / 2) * 2 ^ b.exponent := hr.high
    _ < 2 ^ (53 : Int) * 2 ^ b.exponent := by
      gcongr
      linarith
    _ = 2 ^ (53 + b.exponent) := (zpow_add₀ two_ne_zero _ _).symm

end IsCanonical

end Binary

section Covered

variable {b : Binary} {p q : Nat} (hp : p ≠ 0) (hq : q ≠ 0) (hb : b.IsCanonical)
  (h : b.Covers (p / q))
include hp hq hb h

/-- The number whose interval a fraction is in has the significand and the unit of the rounded
fraction, or the significand is carried over to the next unit. -/
theorem rounded_cases :
    (unitExponent p q = b.exponent ∧ divNearestEven (p * powerOf 2 (-b.exponent))
        (q * powerOf 2 b.exponent) = b.significand) ∨
      (-1074 < b.exponent ∧ b.significand = leadingBit ∧ unitExponent p q = b.exponent - 1 ∧
        divNearestEven (p * powerOf 2 (-(b.exponent - 1))) (q * powerOf 2 (b.exponent - 1)) =
          2 * leadingBit) := by
  have hpower (e : Int) : (0 : ℚ) < 2 ^ e := by positivity
  have hdivisor (e : Int) : 0 < q * powerOf 2 e :=
    Nat.mul_pos (Nat.pos_of_ne_zero hq) (powerOf_pos two_pos e)
  by_cases hunit : b.exponent = -1074 ∨ (2 : ℚ) ^ (52 + b.exponent) ≤ p / q
  · left
    refine ⟨unitExponent_eq hp hq hb.exponent_ge hunit (hb.covers_lt h), ?_⟩
    apply divNearestEven_of_near (hdivisor _) <;> rw [mul_powerOf_div, Nat.cast_ofNat]
    · rw [le_div_iff₀ (hpower _)]
      refine le_trans ?_ h.low
      gcongr
      exact b.below_le
    · rw [div_le_iff₀ (hpower _)]
      exact h.high
    · rw [div_eq_iff (hpower _).ne', div_eq_iff (hpower _).ne']
      rintro (heq | heq)
      · refine h.closed (.inl (le_antisymm ?_ h.low))
        rw [heq]
        gcongr
        exact b.below_le
      · exact h.closed (.inr heq)
  · right
    obtain ⟨hexp, hsmall⟩ := not_or.mp hunit
    rw [not_le] at hsmall
    have hleading := hb.least_or_leading.resolve_left hexp
    have hexp : -1074 < b.exponent := lt_of_le_of_ne hb.exponent_ge (Ne.symm hexp)
    have hsignificand : b.significand = leadingBit := by
      by_contra hne
      have hle : ((leadingBit + 1 : Nat) : ℚ) ≤ b.significand := by
        exact mod_cast Nat.lt_of_le_of_ne hleading (Ne.symm hne)
      rw [Nat.cast_add, Nat.cast_one] at hle
      have hlow : (2 : ℚ) ^ (52 + b.exponent) ≤ p / q := by
        rw [zpow_add₀ two_ne_zero, ← leadingBit_eq]
        refine le_trans ?_ h.low
        gcongr
        linarith [b.below_le]
      exact hsmall.not_ge hlow
    have hlow : (2 ^ (53 : Int) - 1 / 2) * 2 ^ (b.exponent - 1) ≤ (p / q : ℚ) := by
      refine le_of_eq_of_le ?_ h.low
      rw [hsignificand, Binary.below, if_pos ⟨hsignificand, hexp⟩, leadingBit_eq,
        zpow_sub₀ two_ne_zero]
      norm_num
      ring
    have hhigh : (p / q : ℚ) < 2 ^ (53 : Int) * 2 ^ (b.exponent - 1) := by
      rw [← zpow_add₀ two_ne_zero]
      refine lt_of_lt_of_eq hsmall ?_
      congr 1
      ring
    refine ⟨hexp, hsignificand, ?_, ?_⟩
    · apply unitExponent_eq hp hq (by omega)
      · right
        rw [zpow_add₀ two_ne_zero]
        refine le_trans ?_ hlow
        gcongr
        norm_num
      · rwa [zpow_add₀ two_ne_zero]
    · have hcarry : ((2 * leadingBit : Nat) : ℚ) = 2 ^ (53 : Int) := by
        rw [Nat.cast_mul, leadingBit_eq]
        norm_num
      apply divNearestEven_of_near (hdivisor _) <;> rw [mul_powerOf_div, Nat.cast_ofNat]
      · rw [le_div_iff₀ (hpower _), hcarry]
        exact hlow
      · rw [div_le_iff₀ (hpower _), hcarry]
        refine hhigh.le.trans ?_
        gcongr
        linarith
      · exact fun _ => rfl

/-- A fraction is rounded to the number in whose interval it is. -/
theorem ofFraction_eq : ofFraction p q = Float.ofBits (UInt64.ofNat b.bits) := by
  have hlt := hb.bits_lt
  have hle := hb.exponent_ge
  unfold ofFraction
  rw [if_neg hp]
  dsimp only
  rcases rounded_cases hp hq hb h with ⟨hunit, hrounded⟩ | ⟨hexp, hsignificand, hunit, hrounded⟩
  · rw [hunit, hrounded]
    exact if_pos hlt
  · have hunits : (b.exponent + 1075).toNat = (b.exponent - 1 + 1075).toNat + 1 := by omega
    have hbits : b.bits = (b.exponent - 1 + 1075).toNat * leadingBit + leadingBit := by
      unfold Binary.bits
      rw [hsignificand, if_neg (lt_irrefl _), Nat.sub_self, Nat.add_zero, hunits, Nat.succ_mul]
    have hcarried : ¬2 * leadingBit < leadingBit := by decide
    have hfraction : 2 * leadingBit - leadingBit = leadingBit := rfl
    rw [hunit, hrounded, if_neg hcarried, hfraction, ← hbits]
    exact if_pos hlt

end Covered

/-! ## 4. Signs and what is not a number -/

theorem isNaN_eq_false_iff {x : Float} : isNaN x = false ↔ x ≠ Float.nan := by
  unfold isNaN
  rw [Bool.not_eq_false', Float.beq_self_iff]

theorem isNaN_of_toBits {x : Float} (h : x.toBits.toNat ≠ 0x7ff8000000000000) :
    isNaN x = false := by
  rw [isNaN_eq_false_iff]
  rintro rfl
  exact h (by decide)

/-- Whether a number has the bits of a finite number or infinity, without a sign. -/
def IsMagnitude (x : Float) : Prop := x.toBits.toNat ≤ 2047 * leadingBit

namespace IsMagnitude

theorem zero : IsMagnitude 0 := by
  unfold IsMagnitude
  decide

theorem infinity : IsMagnitude infinity := by
  unfold IsMagnitude
  decide

theorem toBits_ofNat {n : Nat} (hn : n < 2047 * leadingBit) :
    (Float.ofBits (UInt64.ofNat n)).toBits.toNat = n := by
  have hsmall : (UInt64.ofNat n).toNat = n := by
    rw [UInt64.toNat_ofNat']
    refine Nat.mod_eq_of_lt ?_
    unfold leadingBit at hn
    omega
  rw [toBits_ofBits, hsmall]
  rw [hsmall]
  unfold leadingBit at *
  omega

theorem ofFraction (p q : Nat) : IsMagnitude (ofFraction p q) := by
  have hbits (n : Nat) : IsMagnitude
      (if n < 2047 * leadingBit then Float.ofBits (UInt64.ofNat n) else Number.infinity) := by
    split
    · next hlt =>
      unfold IsMagnitude
      rw [toBits_ofNat hlt]
      exact hlt.le
    · exact infinity
  unfold Number.ofFraction
  split
  · exact zero
  · exact hbits _

theorem ofDecimal (digits : Nat) (exponent : Int) : IsMagnitude (ofDecimal digits exponent) := by
  unfold Number.ofDecimal
  dsimp only
  split
  · exact zero
  · split
    · exact infinity
    · split
      · exact zero
      · exact ofFraction ..

variable {x : Float} (h : IsMagnitude x)
include h

theorem isNaN_eq_false : isNaN x = false := by
  apply isNaN_of_toBits
  unfold IsMagnitude leadingBit at h
  omega

theorem isNaN_neg : isNaN (-x) = false := by
  rcases Nat.lt_or_eq_of_le h with hlt | heq
  · -- the bits of the opposite number are those of a finite number too
    have hsmall : (UInt64.ofNat (x.toBits.toNat + signBit)).toNat = x.toBits.toNat + signBit := by
      rw [UInt64.toNat_ofNat']
      refine Nat.mod_eq_of_lt ?_
      unfold leadingBit signBit at *
      omega
    have hbits : (Float.ofBits (UInt64.ofNat (x.toBits.toNat + signBit))).toBits.toNat =
        x.toBits.toNat + signBit := by
      rw [toBits_ofBits, hsmall]
      rw [hsmall]
      unfold leadingBit signBit at *
      omega
    rw [neg_eq (by unfold leadingBit signBit at *; omega) hbits]
    apply isNaN_of_toBits
    rw [hbits]
    unfold leadingBit signBit at *
    omega
  · have hx : x = Number.infinity := by
      rw [← Float.toBits_inj, ← UInt64.toNat_inj, heq]
      decide
    rw [hx]
    decide

theorem isNaN_withSign (negative : Bool) : isNaN (withSign negative x) = false := by
  cases negative with
  | false => exact h.isNaN_eq_false
  | true => exact h.isNaN_neg

end IsMagnitude

/-- A number has the bits of its magnitude and its sign. -/
theorem withSign_of_toBits {x y : Float} (h : y.toBits.toNat = x.toBits.toNat % signBit) :
    withSign (isNegative x) y = x := by
  have hlt : x.toBits.toNat < 2 * signBit := x.toBits.toNat_lt
  unfold isNegative withSign
  split
  · next hsign =>
    rw [beq_iff_eq] at hsign
    apply neg_eq
    · rw [h]
      exact Nat.mod_lt _ (by decide)
    · rw [h]
      unfold signBit at *
      omega
  · next hsign =>
    rw [beq_iff_eq] at hsign
    rw [← Float.toBits_inj, ← UInt64.toNat_inj, h]
    unfold signBit at *
    omega

theorem withSign_bits {x : Float} {b : Binary} (h : Binary.ofFloat? x = some b) :
    withSign (isNegative x) (Float.ofBits (UInt64.ofNat b.bits)) = x := by
  apply withSign_of_toBits
  rw [IsMagnitude.toBits_ofNat (Binary.isCanonical_of_ofFloat? h).bits_lt,
    Binary.bits_of_ofFloat? h]

theorem isNaN_of_ofFloat? {x : Float} {b : Binary} (h : Binary.ofFloat? x = some b) :
    isNaN x = false := by
  have hbits := IsMagnitude.toBits_ofNat (Binary.isCanonical_of_ofFloat? h).bits_lt
  rw [← withSign_bits h]
  apply IsMagnitude.isNaN_withSign
  unfold IsMagnitude
  rw [hbits]
  exact (Binary.isCanonical_of_ofFloat? h).bits_lt.le

/-- Among the numbers that are not finite only infinities are numbers. -/
theorem withSign_infinity {x : Float} (hfinite : isFinite x = false) (hnan : isNaN x = false) :
    withSign (isNegative x) infinity = x := by
  have hexp : x.toBits.toNat / leadingBit % 2048 = 2047 := by
    unfold isFinite Binary.ofFloat? at hfinite
    dsimp only at hfinite
    split at hfinite
    · assumption
    · split at hfinite <;> cases hfinite
  have hmantissa : x.toBits.toNat % leadingBit = 0 := by
    by_contra hne
    -- the only bits of what is not a number are those of the one
    rw [isNaN_eq_false_iff] at hnan
    apply hnan
    rw [← Float.toBits_inj, ← UInt64.toBitVec_inj]
    refine x.toModel.valid.eq_packedNaN ?_ fun hzero => hne ?_
    · apply BitVec.eq_of_toNat_eq
      rw [toNat_unpackExponent]
      exact hexp
    · exact (toNat_unpackMantissa x.toBits.toBitVec).symm.trans (congrArg BitVec.toNat hzero)
  apply withSign_of_toBits
  have hbits : infinity.toBits.toNat = 2047 * leadingBit := by decide
  rw [hbits]
  unfold leadingBit signBit at *
  omega

end TraceViewer.Number
